import Backend.Json.Reader
import Backend.Proofs.Json.Lexemes

/-! Reading what was written. The reader takes the lexemes of a value, whatever is open around it, and comes to the
    value; so the text of a value is read as that value, and nothing is lost between writing and reading. -/

namespace Backend
namespace Json

/-- The reader takes the lexemes of the value, whatever is open around it, and has the value. -/
def Taken (v : Json) : Prop :=
  ∀ stack, v.lexemes.foldlM Reader.step ⟨stack, .value⟩ = some ⟨stack, .after v⟩

/-- No value starts with the end of an array. -/
theorem lexemes_head (v : Json) : ∃ l rest, v.lexemes = l :: rest ∧ l ≠ .closeArray := by
  cases v with
  | null => exact ⟨_, _, rfl, nofun⟩
  | bool b => exact ⟨_, _, rfl, nofun⟩
  | number lexeme => exact ⟨_, _, rfl, nofun⟩
  | string s => exact ⟨_, _, rfl, nofun⟩
  | array items =>
    cases items with
    | nil => exact ⟨_, _, rfl, nofun⟩
    | cons v vs => exact ⟨_, _, rfl, nofun⟩
  | object members =>
    cases members with
    | nil => exact ⟨_, _, rfl, nofun⟩
    | cons m ms => exact ⟨_, _, rfl, nofun⟩

/-- Where an array could end at once, a value is taken as anywhere else. -/
theorem Taken.first {v : Json} (h : v.Taken) (stack : List Frame) :
    v.lexemes.foldlM Reader.step ⟨stack, .firstItem⟩ = some ⟨stack, .after v⟩ := by
  obtain ⟨l, rest, hl, hne⟩ := v.lexemes_head
  have hstep : Reader.step ⟨stack, .firstItem⟩ l = Reader.step ⟨stack, .value⟩ l := by
    simp only [Reader.step]
    split
    · exact absurd rfl hne
    · rfl
  rw [← h stack, hl, List.foldlM_cons, List.foldlM_cons, hstep]

/-- The items after the first, up to the end of their array. -/
theorem taken_items {vs : List Json} (h : ∀ v ∈ vs, Taken v) (stack : List Frame) (before : List Json) (v : Json) :
    (itemLexemes vs ++ [Lexeme.closeArray]).foldlM Reader.step ⟨.array before :: stack, .after v⟩ =
      some ⟨stack, .after (.array (before.reverse ++ v :: vs))⟩ := by
  induction vs generalizing before v with
  | nil => simp [itemLexemes, Reader.step, Reader.continueValue]
  | cons w ws ih =>
    have hw := h w List.mem_cons_self (.array (v :: before) :: stack)
    have hws := ih (fun u hu => h u (List.mem_cons_of_mem w hu)) (v :: before) w
    rw [itemLexemes, List.cons_append, List.foldlM_cons, List.append_assoc]
    show (w.lexemes ++ _).foldlM Reader.step ⟨.array (v :: before) :: stack, .value⟩ = _
    rw [List.foldlM_append, hw]
    show (itemLexemes ws ++ _).foldlM Reader.step _ = _
    rw [hws, List.reverse_cons, List.append_assoc]
    rfl

/-- The members after the first, up to the end of their object. -/
theorem taken_members {ms : List (Option String × Json)} (h : ∀ m ∈ ms, Taken m.2) (stack : List Frame)
    (before : List (Option String × Json)) (name : Option String) (v : Json) :
    (memberLexemes ms ++ [Lexeme.closeObject]).foldlM Reader.step ⟨.object before name :: stack, .after v⟩ =
      some ⟨stack, .after (.object (before.reverse ++ (name, v) :: ms))⟩ := by
  induction ms generalizing before name v with
  | nil => simp [memberLexemes, Reader.step, Reader.continueValue]
  | cons m ms ih =>
    obtain ⟨next, w⟩ := m
    have hw := h (next, w) List.mem_cons_self (.object ((name, v) :: before) next :: stack)
    have hms := ih (fun u hu => h u (List.mem_cons_of_mem (next, w) hu)) ((name, v) :: before) next w
    rw [memberLexemes, List.cons_append, List.cons_append, List.cons_append, List.append_assoc]
    show (w.lexemes ++ _).foldlM Reader.step ⟨.object ((name, v) :: before) next :: stack, .value⟩ = _
    rw [List.foldlM_append, hw]
    show (memberLexemes ms ++ _).foldlM Reader.step _ = _
    rw [hms, List.reverse_cons, List.append_assoc]
    rfl

theorem sizeOf_snd_lt {m : Option String × Json} {ms : List (Option String × Json)} (h : m ∈ ms) :
    sizeOf m.2 < sizeOf ms := by
  have hm := List.sizeOf_lt_of_mem h
  cases m
  simp only [Prod.mk.sizeOf_spec] at hm ⊢
  omega

theorem taken (v : Json) : Taken v := by
  match v with
  | .null => exact fun _ => rfl
  | .bool b => exact fun _ => rfl
  | .number lexeme => exact fun _ => rfl
  | .string s => exact fun _ => rfl
  | .array [] => exact fun _ => rfl
  | .array (v :: vs) =>
    intro stack
    have hv := (taken v).first (.array [] :: stack)
    have hall : ∀ w ∈ vs, Taken w := fun w _ => taken w
    have hvs := taken_items hall stack [] v
    rw [lexemes, List.foldlM_cons]
    show (v.lexemes ++ _).foldlM Reader.step ⟨.array [] :: stack, .firstItem⟩ = _
    rw [List.foldlM_append, hv]
    exact hvs
  | .object [] => exact fun _ => rfl
  | .object ((name, v) :: ms) =>
    intro stack
    have hv := taken v (.object [] name :: stack)
    have hall : ∀ m ∈ ms, Taken m.2 := fun m hm => by
      have hlt := sizeOf_snd_lt hm
      exact taken m.2
    have hms := taken_members hall stack [] name v
    rw [lexemes, List.foldlM_cons]
    show (v.lexemes ++ _).foldlM Reader.step ⟨.object [] name :: stack, .value⟩ = _
    rw [List.foldlM_append, hv]
    exact hms
termination_by sizeOf v

/-- The text of a value, in either style, is read as the value. -/
theorem read?_write {v : Json} (h : v.Sound) (style : Style) (level : Nat) : read? (write style level v) = some v := by
  rw [read?, lexemes?_write h]
  show (v.lexemes.foldlM Reader.step ⟨[], .value⟩).bind Reader.finish = _
  rw [taken v []]
  rfl

end Json
end Backend
