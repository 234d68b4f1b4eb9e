import Backend.Proofs.Package.Acceptance

/-! What decoding can give. A decoded collection holds only what the decoder of its items gives, and an exact number
    is given only by reading a text. So the numbers of a package that comes from outside are in the same bounds as
    those of one that was built here. -/

namespace Backend
namespace Json

/-- Whatever a decoder gives has a property. -/
def Gives {α : Type} (decode : Json → Option α) (P : α → Prop) : Prop := ∀ v a, decode v = some a → P a

section
variable {α β : Type} {P : α → Prop} {decode : Json → Option α}

theorem forall_mem_of_mapM {f : β → Option α} (hf : ∀ b a, f b = some a → P a) {bs : List β} {l : List α}
    (h : bs.mapM f = some l) : ∀ a ∈ l, P a := by
  induction bs generalizing l with
  | nil =>
    cases h
    exact nofun
  | cons b bs ih =>
    rw [List.mapM_cons] at h
    obtain ⟨a, ha, h⟩ := Option.bind_eq_some_iff.mp h
    obtain ⟨rest, hrest, h⟩ := Option.bind_eq_some_iff.mp h
    cases h
    exact List.forall_mem_cons.mpr ⟨hf b a ha, ih hrest⟩

theorem Gives.list? (hd : Gives decode P) : Gives (list? decode) fun l => ∀ a ∈ l, P a := by
  intro v l h
  cases v with
  | array items => exact forall_mem_of_mapM hd h
  | _ => cases h

theorem Gives.listOrEmpty? (hd : Gives decode P) {o : Option Json} {l : List α} (h : listOrEmpty? decode o = some l) :
    ∀ a ∈ l, P a := by
  cases o with
  | none =>
    cases h
    exact nofun
  | some v => exact hd.list? v l h

theorem forall_mem_ofEntries {l : List (String × α)} (h : ∀ e ∈ l, P e.2) :
    ∀ e ∈ (Catalog.ofEntries l).entries, P e.2 := by
  refine List.foldlRecOn (motive := fun c : Catalog α => ∀ e ∈ c.entries, P e.2) l _ nofun fun c hc e he e' he' => ?_
  rcases Catalog.mem_insertEntry he' with rfl | he'
  · exact h e he
  · exact hc e' he'

theorem Gives.catalog? (hd : Gives decode P) : Gives (catalog? decode) fun c => ∀ e ∈ c.entries, P e.2 := by
  intro v c h
  cases v with
  | object members =>
    obtain ⟨l, hl, rfl⟩ := Option.map_eq_some_iff.mp h
    refine forall_mem_ofEntries (forall_mem_of_mapM (P := fun e : String × α => P e.2) (fun m e he => ?_) hl)
    obtain ⟨name, -, he⟩ := Option.bind_eq_some_iff.mp he
    obtain ⟨a, ha, he⟩ := Option.bind_eq_some_iff.mp he
    cases he
    exact hd _ a ha
  | _ => cases h

theorem Gives.optional? (hd : Gives decode P) {o : Option Json} {r : Option α} (h : optional? decode o = some r) :
    ∀ a ∈ r, P a := by
  unfold Json.optional? at h
  split at h
  · cases h
    exact nofun
  · cases h
    exact nofun
  · obtain ⟨a, ha, rfl⟩ := Option.map_eq_some_iff.mp h
    rintro _ ⟨⟩
    exact hd _ a ha

end

theorem gives_decimal? : Gives decimal? Decimal.Constructible := by
  intro v d h
  obtain ⟨s, -, h⟩ := Option.bind_eq_some_iff.mp h
  split at h
  · rename_i hparse
    cases h
    exact .parsed hparse
  · cases h

end Json

open Json

theorem Constant.gives_ofJson? : Gives Constant.ofJson? fun c => c.value.Constructible := by
  intro v c h
  obtain ⟨fields, -, hc⟩ := Option.bind_eq_some_iff.mp h
  split at hc
  · simp only [bind, Option.bind_eq_some_iff] at hc
    obtain ⟨_, -, _, -, value, hvalue, _, -, hc⟩ := hc
    cases hc
    exact gives_decimal? _ value hvalue
  · cases hc

theorem TypeRecord.gives_ofJson? : Gives TypeRecord.ofJson? fun r => ∀ c ∈ r.constFields, c.value.Constructible := by
  intro v r h
  obtain ⟨fields, -, hr⟩ := Option.bind_eq_some_iff.mp h
  split at hr
  · simp only [bind, Option.bind_eq_some_iff] at hr
    obtain ⟨_, -, _, -, _, -, _, -, _, -, _, -, constFields, hconst, _, -, hr⟩ := hr
    cases hr
    exact Constant.gives_ofJson?.listOrEmpty? hconst
  · cases hr

/-- The exact numbers of a decoded package have been read from texts. -/
theorem Package.constructible_of_decode {text : String} {p : Package} (h : decode text = .ok p) :
    ∀ c ∈ p.allConstants, c.value.Constructible := by
  unfold decode at h
  split at h
  · rename_i hjson
    cases h
    obtain ⟨v, -, hv⟩ := Option.bind_eq_some_iff.mp hjson
    obtain ⟨fields, -, hp⟩ := Option.bind_eq_some_iff.mp hv
    split at hp
    · simp only [bind, Option.bind_eq_some_iff] at hp
      obtain ⟨constants, hconstants, types, htypes, _, -, _, -, _, -, _, -, hp⟩ := hp
      cases hp
      rw [forall_mem_allConstants]
      exact ⟨Constant.gives_ofJson?.catalog?.optional? hconstants, TypeRecord.gives_ofJson?.catalog?.optional? htypes⟩
    · cases hp
  · cases h

end Backend
