import Backend.Proofs.Json.Scaling
import Backend.Proofs.Package.Partition
import Backend.Proofs.Package.Projection

/-! Which packages are decoded again. A binary number is written as a number if it is finite and as null if it is not,
    and null is not read as a number. All else that a builder puts into a package is read, so a package is refused
    just for constants that are infinite or no number at all. -/

namespace Backend

/-! ### Binary numbers -/

theorem Binary64.eq_ofMagnitude (x : Binary64) : x = ofMagnitude x.negative x.magnitude := by
  have hlt : x.bits.toNat < 2 ^ 64 := x.bits.toNat_lt
  have hbits : x.bits.toNat = (if x.negative then signUnit else 0) + x.magnitude := by
    unfold negative magnitude
    split
    · rename_i h
      have := of_decide_eq_true h
      unfold signUnit at *
      omega
    · rename_i h
      have := of_decide_eq_false (Bool.not_eq_true _ ▸ h)
      unfold signUnit at *
      omega
  rw [ofMagnitude, ← hbits, UInt64.ofNat_toNat]

namespace Json

/-- What is written for zero and for the two largest numbers. -/
theorem isSome_binary64?_ends : ∀ negative, ∀ m ∈ [0, 0x7FEFFFFFFFFFFFFE, 0x7FEFFFFFFFFFFFFF],
    (binary64? (.number (jsonLayout.write (.ofMagnitude negative m)))).isSome := by
  decide +kernel

theorem isSome_binary64?_write {x : Binary64} (h : x.isFinite = true) :
    (binary64? (.number (jsonLayout.write x))).isSome := by
  have hlt : x.magnitude < 0x7FF0000000000000 := of_decide_eq_true h
  have hlimit : nextToLargest.magnitude = 0x7FEFFFFFFFFFFFFE := by decide
  by_cases hends : x.magnitude ∈ [0, 0x7FEFFFFFFFFFFFFE, 0x7FEFFFFFFFFFFFFF]
  · rw [x.eq_ofMagnitude]
    exact isSome_binary64?_ends x.negative x.magnitude hends
  · simp only [List.mem_cons, List.not_mem_nil, or_false, not_or] at hends
    exact Layout.isSome_toBinary64?_write (by decide) (decide_eq_false hends.1) (by omega)

/-- The finite numbers are those that are read again. -/
theorem isSome_binary64?_iff (x : Binary64) : (binary64? (ofBinary64 x)).isSome ↔ x.isFinite = true := by
  unfold ofBinary64
  split
  · rename_i h
    exact iff_of_true (isSome_binary64?_write h) h
  · rename_i h
    exact iff_of_false nofun h

/-! ### Collections -/

section
variable {α β γ : Type}

theorem isSome_both_iff {x : Option α} {y : Option β} {f : α → β → γ} :
    (do let a ← x; let b ← y; return f a b).isSome ↔ x.isSome ∧ y.isSome := by
  cases x <;> cases y <;> simp

theorem isSome_mapM_iff {g : α → Option β} {l : List α} : (l.mapM g).isSome ↔ ∀ a ∈ l, (g a).isSome := by
  induction l with
  | nil => exact iff_of_true rfl nofun
  | cons a l ih =>
    rw [List.mapM_cons, List.forall_mem_cons, ← ih]
    cases g a with
    | none => simp
    | some b => cases l.mapM g <;> simp

theorem isSome_listOrEmpty?_iff {encode : α → Json} {decode : Json → Option β} {l : List α} :
    (listOrEmpty? decode (ifAny encode l)).isSome ↔ ∀ a ∈ l, (decode (encode a)).isSome := by
  unfold ifAny
  split
  · rename_i hempty
    rw [List.isEmpty_iff.mp hempty]
    exact iff_of_true rfl nofun
  · exact isSome_mapM_iff.trans List.forall_mem_map

theorem isSome_catalog?_iff {encode : α → Json} {decode : Json → Option β} {c : Catalog α} :
    (catalog? decode (ofCatalog encode c)).isSome ↔ ∀ e ∈ c.entries, (decode (encode e.2)).isSome := by
  have hnamed : ∀ e : String × α, (named? decode (some e.1, encode e.2)).isSome = (decode (encode e.2)).isSome :=
    fun e => by cases h : decode (encode e.2) <;> simp [named?, h]
  rw [catalog?_eq, Option.isSome_map, isSome_mapM_iff, List.forall_mem_map]
  simp only [hnamed]

theorem ofCatalog_ne_null (encode : α → Json) (c : Catalog α) : ofCatalog encode c ≠ .null := nofun

theorem isSome_optional?_iff {encode : α → Json} {decode : Json → Option β} {o : Option α}
    (hnull : ∀ a, encode a ≠ .null) :
    (optional? decode (o.map encode)).isSome ↔ ∀ a ∈ o, (decode (encode a)).isSome := by
  cases o with
  | none => exact iff_of_true rfl nofun
  | some a =>
    rw [Option.map_some, optional?_some decode (hnull a), Option.isSome_map]
    simp

end

end Json

open Json

/-! ### Packages -/

theorem Constant.isSome_ofJson?_iff {c : Constant} (h : c.value.Constructible) :
    (Constant.ofJson? c.toJson).isSome ↔ c.float.isFinite = true := by
  rw [ofJson?_eq h, Option.isSome_map, isSome_binary64?_iff]

theorem TypeRecord.isSome_ofJson?_iff {r : TypeRecord} (h : ∀ c ∈ r.constFields, c.value.Constructible) :
    (TypeRecord.ofJson? r.toJson).isSome ↔ ∀ c ∈ r.constFields, c.float.isFinite = true := by
  rw [ofJson?_eq, Option.isSome_map, isSome_listOrEmpty?_iff]
  exact forall₂_congr fun c hc => Constant.isSome_ofJson?_iff (h c hc)

namespace Package

theorem forall_mem_allConstants {p : Package} {P : Constant → Prop} :
    (∀ c ∈ p.allConstants, P c) ↔
      (∀ constants ∈ p.constants, ∀ e ∈ constants.entries, P e.2) ∧
        ∀ types ∈ p.types, ∀ e ∈ types.entries, ∀ c ∈ e.2.constFields, P c := by
  rw [allConstants, List.forall_mem_append]
  refine and_congr ?_ ?_
  · cases p.constants with
    | none => exact iff_of_true nofun nofun
    | some constants =>
      simp only [Option.map_some, Option.getD_some, List.forall_mem_map, Option.mem_some_iff, forall_eq']
  · cases p.types with
    | none => exact iff_of_true nofun nofun
    | some types =>
      simp only [Option.map_some, Option.getD_some, List.mem_flatMap, Option.mem_some_iff, forall_eq']
      exact ⟨fun h e he c hc => h c ⟨e, he, hc⟩, fun h c ⟨e, he, hc⟩ => h e he c hc⟩

theorem isSome_ofJson?_iff {p : Package} (h : ∀ c ∈ p.allConstants, c.value.Constructible) :
    (ofJson? p.toJson).isSome ↔ ∀ c ∈ p.allConstants, c.float.isFinite = true := by
  rw [forall_mem_allConstants] at h ⊢
  rw [ofJson?_eq]
  refine isSome_both_iff.trans (and_congr ?_ ?_)
  · refine (isSome_optional?_iff (ofCatalog_ne_null _)).trans (forall₂_congr fun constants hc => ?_)
    refine isSome_catalog?_iff.trans (forall₂_congr fun e he => ?_)
    exact Constant.isSome_ofJson?_iff (h.1 constants hc e he)
  · refine (isSome_optional?_iff (ofCatalog_ne_null _)).trans (forall₂_congr fun types ht => ?_)
    refine isSome_catalog?_iff.trans (forall₂_congr fun e he => ?_)
    exact TypeRecord.isSome_ofJson?_iff (h.2 types ht e he)

theorem decode_encode_eq_ok_iff {p : Package} (h : ∀ c ∈ p.allConstants, c.value.Constructible) :
    (∃ q, decode p.encode = .ok q) ↔ ∀ c ∈ p.allConstants, c.float.isFinite = true := by
  rw [← isSome_ofJson?_iff h, decode, read?_encode, Option.bind_some]
  cases ofJson? p.toJson <;> simp

end Package

/-! ### Constants of a builder -/

/-- The constants that can come up: integers, characters, binary numbers, and an exact number with any binary one. -/
inductive Constant.Made : Constant → Prop where
  | int {name typeName : String} {n : Int} {c : Constant} (h : ofInt? name typeName n = some c) : Made c
  | char (name typeName : String) (c : Char) : Made (ofChar name typeName c)
  | float (name typeName : String) (x : Binary64) : Made (ofFloat name typeName x)
  | both (name typeName : String) {value : Decimal} (h : value.Constructible) (x : Binary64) :
    Made ⟨name, typeName, value, x⟩

theorem Constant.Made.constructible {c : Constant} (h : c.Made) : c.value.Constructible := by
  cases h with
  | int h =>
    obtain ⟨d, hd, rfl⟩ := Option.map_eq_some_iff.mp h
    exact .ofInt hd
  | char name typeName c => exact .ofChar c
  | float name typeName x =>
    show (exactValue x).Constructible
    unfold exactValue
    split
    · split
      · rename_i n _ hn
        refine .ofInt (if_pos ?_)
        unfold Decimal.InRange
        omega
      · exact .zero
    · exact .zero
  | both name typeName h x => exact h

/-- The constants that a request is to add. -/
def Request.constants : Request → List Constant
  | .constant _ c => [c]
  | .type _ r => r.constFields
  | _ => []

namespace Builder

/-- All constants of a builder, those under names of their own and those in types, have a property. -/
structure EachConstant (b : Builder) (P : Constant → Prop) : Prop where
  named : ∀ e ∈ b.constants.entries, P e.2
  typed : ∀ e ∈ b.types.entries, ∀ c ∈ e.2.constFields, P c

section
variable {b : Builder} {P : Constant → Prop}

theorem EachConstant.addConstant {b' : Builder} {name : String} {c : Constant} (h : b.EachConstant P)
    (hadd : b.addConstant name c = .ok b') (hc : P c) : b'.EachConstant P := by
  obtain ⟨constants, hinsert, rfl⟩ := map_eq_ok hadd
  obtain ⟨-, rfl⟩ := insertNew_eq_ok hinsert
  refine ⟨fun e he => ?_, h.typed⟩
  rcases Catalog.mem_insertEntry he with rfl | he
  · exact hc
  · exact h.named e he

theorem EachConstant.addType {b' : Builder} {name : String} {r : TypeRecord} (h : b.EachConstant P)
    (hadd : b.addType name r = .ok b') (hr : ∀ c ∈ r.constFields, P c) : b'.EachConstant P := by
  obtain ⟨types, hinsert, rfl⟩ := map_eq_ok hadd
  obtain ⟨-, rfl⟩ := insertNew_eq_ok hinsert
  refine ⟨h.named, fun e he => ?_⟩
  rcases Catalog.mem_insertEntry he with rfl | he
  · exact hr
  · exact h.typed e he

/-- Functions bring no constants. -/
theorem EachConstant.addFunction {b' : Builder} {name : String} {signature : Signature} {code : CodeRecord}
    (h : b.EachConstant P) (hadd : b.addFunction name signature code = .ok b') : b'.EachConstant P := by
  unfold Builder.addFunction at hadd
  split at hadd
  · cases hadd
  · cases hadd
    exact ⟨h.named, h.typed⟩

theorem EachConstant.projectBatch (h : b.EachConstant P) (batch : List Routine) :
    (b.projectBatch batch).2.EachConstant P := by
  by_cases hbatch : Acceptable b batch
  · obtain ⟨b', hproject, -, hsame⟩ := projectBatch_of_acceptable hbatch
    rw [hproject]
    exact ⟨hsame.constants ▸ h.named, hsame.types ▸ h.typed⟩
  · obtain ⟨e, hproject, -⟩ := projectBatch_of_not_acceptable hbatch
    rw [hproject]
    exact h

theorem EachConstant.settle {x : Except DuplicateName Builder} (h : b.EachConstant P)
    (hx : ∀ b', x = .ok b' → b'.EachConstant P) : (b.settle x).2.EachConstant P := by
  cases x with
  | error e => exact h
  | ok b' => exact hx b' rfl

theorem EachConstant.perform {r : Request} (h : b.EachConstant P) (hr : ∀ c ∈ r.constants, P c) :
    (b.perform r).2.EachConstant P := by
  cases r with
  | constant name c => exact h.settle fun _ hadd => h.addConstant hadd (hr c List.mem_cons_self)
  | type name r => exact h.settle fun _ hadd => h.addType hadd hr
  | function name signature code => exact h.settle fun _ hadd => h.addFunction hadd
  | string text => exact ⟨h.named, h.typed⟩
  | trString t => exact ⟨h.named, h.typed⟩
  | batch routines => exact h.projectBatch routines

theorem eachConstant_filled {requests : List Request} (h : ∀ r ∈ requests, ∀ c ∈ r.constants, P c) :
    (filled requests).EachConstant P :=
  List.foldlRecOn (motive := (EachConstant · P)) requests _ ⟨nofun, nofun⟩ fun _ hb r hr => hb.perform (h r hr)

theorem eq_of_mem_present {α : Type} {c d : Catalog α} (h : d ∈ present c) : d = c := by
  rw [← getD_present c, Option.mem_def.mp h]
  rfl

theorem EachConstant.build (h : b.EachConstant P) (kind : PackageKind) : ∀ c ∈ (b.build kind).allConstants, P c := by
  have hconstants : (b.build kind).constants = present b.constants := by cases kind <;> rfl
  have htypes : (b.build kind).types = present b.types := by cases kind <;> rfl
  rw [Package.forall_mem_allConstants, hconstants, htypes]
  refine ⟨fun constants hc => ?_, fun types ht => ?_⟩
  · rw [eq_of_mem_present hc]
    exact h.named
  · rw [eq_of_mem_present ht]
    exact h.typed

end

/-- A package that a builder has built is decoded again just if no constant in it is infinite or no number at all. -/
theorem decodes_built_iff_finite {requests : List Request} (h : ∀ r ∈ requests, ∀ c ∈ r.constants, c.Made)
    (kind : PackageKind) :
    (∃ p, Package.decode ((filled requests).build kind).encode = .ok p) ↔
      ∀ c ∈ ((filled requests).build kind).allConstants, c.float.isFinite = true :=
  Package.decode_encode_eq_ok_iff fun c hc => ((eachConstant_filled h).build kind c hc).constructible

/-- An integer, a constant that is refused as the name is taken, and a type with the largest finite number. -/
def finiteRun : List Request :=
  [.constant "geo.one" (.exact "one" "int" ⟨1, 0⟩), .constant "geo.one" (.ofFloat "one" "float" ⟨0x7FF8000000000000⟩),
    .type "geo.Box" ⟨"Box", 8, 8, [], [], [],
      [.ofChar "mark" "char" 'A', ⟨"most", "float", ⟨-150, 2⟩, ⟨0x7FEFFFFFFFFFFFFF⟩⟩], []⟩]

theorem finiteRun_decodes_built :
    (∀ r ∈ finiteRun, ∀ c ∈ r.constants, c.Made) ∧
    (∀ c ∈ ((filled finiteRun).build .object).allConstants, c.float.isFinite = true) ∧
    ∃ p, Package.decode ((filled finiteRun).build .object).encode = .ok p := by
  have hmade : ∀ r ∈ finiteRun, ∀ c ∈ r.constants, c.Made := by
    simp only [finiteRun, Request.constants, List.forall_mem_cons]
    exact ⟨⟨.int (n := 1) rfl, nofun⟩, ⟨.float _ _ _, nofun⟩,
      ⟨.char _ _ 'A', .both _ _ (.parsed (s := "-1.50") (by rfl)) _, nofun⟩, nofun⟩
  have hfinite : ∀ c ∈ ((filled finiteRun).build .object).allConstants, c.float.isFinite = true := by decide +kernel
  exact ⟨hmade, hfinite, (decodes_built_iff_finite hmade .object).mpr hfinite⟩

/-- Not every package that is built is decoded again: one with a constant that is no number is not. -/
theorem not_all_built_decode :
    ¬∀ (requests : List Request) (kind : PackageKind), (∀ r ∈ requests, ∀ c ∈ r.constants, c.Made) →
      ∃ p, Package.decode ((filled requests).build kind).encode = .ok p := by
  intro hall
  have hmade : ∀ r ∈ [Request.constant "A" (.ofFloat "f" "f64" ⟨0x7FF8000000000000⟩)], ∀ c ∈ r.constants, c.Made := by
    simp only [Request.constants, List.forall_mem_cons]
    exact ⟨⟨.float _ _ _, nofun⟩, nofun⟩
  have hfinite := (Package.decode_encode_eq_ok_iff fun c hc =>
    ((eachConstant_filled hmade).build .header c hc).constructible).mp (hall _ .header hmade)
  exact absurd (hfinite _ List.mem_cons_self) (by decide)

end Builder
end Backend
