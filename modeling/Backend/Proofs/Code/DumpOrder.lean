import Backend.Proofs.Code.Printing
import Backend.Proofs.Text.ByteOrder

/-! The dump of many functions does not hang on the order in which they are given, as long as functions of one name
    keep theirs: it is the dumps of all of them behind each other, by the bytes of their names. -/

namespace Backend
namespace Function
variable {fs fs' : List Function}

/-- The same functions, those of one name in the same order. -/
structure Rearranged (fs fs' : List Function) : Prop where
  perm : fs'.Perm fs
  stable : ∀ name, fs'.filter (·.name = name) = fs.filter (·.name = name)

/-- The names ascend by the bytes of their UTF-8 forms. -/
def NamesAscend (fs : List Function) : Prop :=
  fs.Pairwise fun f g => Text.bytes f.name.toList ≤ Text.bytes g.name.toList

theorem namesAscend_iff : NamesAscend fs ↔ fs.Pairwise fun f g => f.name ≤ g.name :=
  List.Pairwise.iff fun _ _ => Text.le_iff_bytes_le.symm

theorem rearranged_sorted (fs : List Function) : Rearranged fs (sorted fs) :=
  ⟨(byName_sorted fs).perm, (byName_sorted fs).stable⟩

theorem namesAscend_sorted (fs : List Function) : NamesAscend (sorted fs) :=
  namesAscend_iff.mpr (byName_sorted fs).ascending

theorem Rearranged.symm (h : Rearranged fs fs') : Rearranged fs' fs :=
  ⟨h.perm.symm, fun name => (h.stable name).symm⟩

theorem Rearranged.trans {fs'' : List Function} (h : Rearranged fs fs') (h' : Rearranged fs' fs'') :
    Rearranged fs fs'' :=
  ⟨h'.perm.trans h.perm, fun name => (h'.stable name).trans (h.stable name)⟩

theorem Rearranged.cons (h : Rearranged fs fs') (f : Function) : Rearranged (f :: fs) (f :: fs') :=
  ⟨h.perm.cons f, fun name => by rw [List.filter_cons, List.filter_cons, h.stable]⟩

/-- Functions of different names may change places. -/
theorem Rearranged.swap {f g : Function} (h : f.name ≠ g.name) (fs : List Function) :
    Rearranged (f :: g :: fs) (g :: f :: fs) := by
  refine ⟨List.Perm.swap f g fs, fun name => ?_⟩
  by_cases hname : f.name = name
  · have hg : g.name ≠ name := fun hg => h (hname.trans hg.symm)
    simp [hname, hg]
  · simp [List.filter_cons, hname]

theorem filter_tail {f : Function} (h : ∀ name, (f :: fs').filter (·.name = name) = (f :: fs).filter (·.name = name))
    (name : String) : fs'.filter (·.name = name) = fs.filter (·.name = name) := by
  have hname := h name
  by_cases heq : f.name = name
  · simpa [List.filter_cons, heq] using hname
  · simpa [List.filter_cons, heq] using hname

/-- The name of the first function is not above any other. -/
theorem head_le {f g : Function} (h : (f :: fs).Pairwise fun f g => f.name ≤ g.name) (hg : g ∈ f :: fs) :
    f.name ≤ g.name := by
  rcases List.mem_cons.mp hg with rfl | hg
  · exact String.le_refl _
  · exact List.rel_of_pairwise_cons h hg

/-- Functions in ascending order are told by what there is of each name. -/
theorem eq_of_ascending (hfs : fs.Pairwise fun f g => f.name ≤ g.name) (hfs' : fs'.Pairwise fun f g => f.name ≤ g.name)
    (h : Rearranged fs fs') : fs' = fs := by
  obtain ⟨hperm, hstable⟩ := h
  induction fs generalizing fs' with
  | nil => exact hperm.eq_nil
  | cons f fs ih =>
    cases fs' with
    | nil => cases hperm.symm.eq_nil
    | cons g fs' =>
      -- Both first names are the least one, and the functions of that name stand in the same order.
      have hname : f.name = g.name := String.le_antisymm (head_le hfs (hperm.subset List.mem_cons_self))
        (head_le hfs' (hperm.symm.subset List.mem_cons_self))
      have hfirst : g = f := by
        have hleast := hstable g.name
        simp only [List.filter_cons, hname, decide_true, if_true, List.cons.injEq] at hleast
        exact hleast.1
      subst hfirst
      rw [ih hfs.of_cons hfs'.of_cons hperm.cons_inv (filter_tail hstable)]

theorem eq_of_namesAscend (hfs : NamesAscend fs) (hfs' : NamesAscend fs') (h : Rearranged fs fs') : fs' = fs :=
  eq_of_ascending (namesAscend_iff.mp hfs) (namesAscend_iff.mp hfs') h

theorem sorted_eq_of_rearranged (h : Rearranged fs fs') : sorted fs' = sorted fs :=
  eq_of_namesAscend (namesAscend_sorted fs) (namesAscend_sorted fs')
    (((rearranged_sorted fs).symm.trans h).trans (rearranged_sorted fs'))

/-- The dumps of functions behind each other, or what is wrong with the first that has none. -/
theorem textOfLines_flatMap (fs : List Function) :
    textOfLines (fs.flatMap dumpLines) = (fs.mapM dump).map String.join := by
  induction fs with
  | nil => rfl
  | cons f fs ih =>
    rw [List.flatMap_cons, textOfLines_append, ih, List.mapM_cons, ← dump]
    cases f.dump with
    | error e => rfl
    | ok text => cases fs.mapM dump <;> simp [bind, Except.bind, pure, Except.pure, Except.map]

/-- The dump of many functions has the dump of each of them once, in the one order in which the names ascend by their
    bytes and functions of one name stand as they were. So the dump stays the same however functions of different names
    are moved about. If all slots are in range and no operation is too deep, there are all these dumps; otherwise the
    dump of many fails as the first does that fails. -/
theorem dumps_are_reproducible (h : ∀ f ∈ fs, f.LocalsInRange) :
    (∃ order, Rearranged fs order ∧ NamesAscend order ∧
      (∀ order', Rearranged fs order' → NamesAscend order' → order' = order) ∧
      dumpAll fs = (order.mapM dump).map String.join ∧
      ((∀ f ∈ fs, f.Shallow) → ∃ texts,
        List.Forall₂ (fun f text => f.dump = .ok text) order texts ∧ dumpAll fs = .ok (String.join texts))) ∧
    ∀ fs', Rearranged fs fs' → dumpAll fs' = dumpAll fs := by
  have hsorted := rearranged_sorted fs
  constructor
  · refine ⟨sorted fs, hsorted, namesAscend_sorted fs, ?_, textOfLines_flatMap _, fun hshallow => ?_⟩
    · intro order horder hascend
      exact eq_of_namesAscend (namesAscend_sorted fs) hascend (hsorted.symm.trans horder)
    · refine exists_dumps fun f hf => ?_
      have hf := hsorted.perm.mem_iff.mp hf
      exact ⟨h f hf, hshallow f hf⟩
  · intro fs' hfs'
    rw [dumpAll, dumpAll, dumpAllLines, dumpAllLines, sorted_eq_of_rearranged hfs']

/-- Its name has a larger character than `ligature`, though not in UTF-16. -/
def boldface : Function := .new "𝐟"

def ligature (text : String) : Function := ⟨"ﬁ", .ofList [⟨"é", "i32"⟩], [.scope [.ldlr 0 "é"], .comment text]⟩

theorem boldface_dumps_last : (∀ f ∈ [boldface, ligature "a", ligature "b"], f.LocalsInRange ∧ f.Shallow) ∧
    (∃ texts, List.Forall₂ (fun f text => f.dump = .ok text) [ligature "a", ligature "b", boldface] texts ∧
      dumpAll [boldface, ligature "a", ligature "b"] = .ok (String.join texts)) ∧
    dumpAll [ligature "a", boldface, ligature "b"] = dumpAll [boldface, ligature "a", ligature "b"] := by
  have hdumpable : ∀ f ∈ [boldface, ligature "a", ligature "b"], f.LocalsInRange ∧ f.Shallow := by
    intro f hf
    rw [← firstFault?_eq_none_iff]
    simp only [List.mem_cons, List.not_mem_nil, or_false] at hf
    rcases hf with rfl | rfl | rfl <;> rfl
  have hmoved : Rearranged [boldface, ligature "a", ligature "b"] [ligature "a", boldface, ligature "b"] :=
    Rearranged.swap (by decide) _
  have hlast : Rearranged [boldface, ligature "a", ligature "b"] [ligature "a", ligature "b", boldface] :=
    hmoved.trans ((Rearranged.swap (by decide) []).cons (ligature "a"))
  have hascend : NamesAscend [ligature "a", ligature "b", boldface] := by
    unfold NamesAscend
    decide
  obtain ⟨⟨order, -, -, hunique, -, hdumps⟩, hsame⟩ := dumps_are_reproducible fun f hf => (hdumpable f hf).1
  rw [← hunique _ hlast hascend] at hdumps
  exact ⟨hdumpable, hdumps fun f hf => (hdumpable f hf).2, hsame _ hmoved⟩

end Function
end Backend
