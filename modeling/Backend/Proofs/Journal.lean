import Backend.Journal
import Mathlib.Data.Finset.Card
import Mathlib.Data.Finset.Range

/-! Headings of a journal. A heading is open from where it is written until its guard is dropped, and guards may be
    dropped in any order. The journal keeps no more than a depth, which each entry reads and sets; that depth is always
    the number of headings that are open. So each entry stands beneath as many headings as are open, and where the
    guards are dropped from the last heading to the first, a section ends at the indentation at which it starts. Beneath
    too many headings a journal for people cannot be written, and what was to be written there leaves no trace. -/

namespace Backend
namespace Journal

/-! ### What callers do -/

/-- What a caller does: notes something, writes a heading and gets a guard for it, or drops a guard. The guard of a
    heading is told by the place of the heading among all actions. -/
inductive Action where
  | note (n : Note)
  | heading (n : Note)
  | drop (guard : Nat)

namespace Action

def entry : Action → Entry
  | .note n => .note n
  | .heading n => .enter n
  | .drop _ => .leave

def isHeading : Action → Bool
  | .heading _ => true
  | _ => false

def dropped? : Action → Option Nat
  | .drop guard => some guard
  | _ => none

end Action

/-- An entry can be written at a depth. -/
def Form.Fits (form : Form) (depth : Nat) : Prop := form = .human → 2 * depth ≤ Text.maxPadding

instance (form : Form) (depth : Nat) : Decidable (form.Fits depth) := inferInstanceAs (Decidable (_ → _))

section
variable (form : Form) (actions : List Action)

def HeadingAt (i : Nat) : Prop := actions[i]?.any Action.isHeading = true

instance (i : Nat) : Decidable (HeadingAt actions i) := inferInstanceAs (Decidable (_ = _))

/-- The guard that the action at a place drops. -/
def droppedAt? (i : Nat) : Option Nat := actions[i]?.bind Action.dropped?

/-- The headings that are open when the action at a place comes. There is no guard for a heading that could not be
    written, and it is not open. -/
def openBefore : Nat → Finset Nat
  | 0 => ∅
  | i + 1 => match actions[i]? with
    | some (.heading _) => if form.Fits (openBefore i).card then insert i (openBefore i) else openBefore i
    | some (.drop guard) => (openBefore i).erase guard
    | _ => openBefore i

/-- A heading is written at the place. -/
def OpensAt (i : Nat) : Prop := HeadingAt actions i ∧ form.Fits (openBefore form actions i).card

/-- The number of headings that an action is beneath: those open when it comes, without the one that it closes. -/
def nesting (i : Nat) : Nat := {g ∈ openBefore form actions i | droppedAt? actions i ≠ some g}.card

/-- A guard is dropped after its heading was written, and once. -/
def Orderly : Prop := ∀ i < actions.length, ∀ g ∈ droppedAt? actions i, g ∈ openBefore form actions i

instance : Decidable (Orderly form actions) := inferInstanceAs (Decidable (∀ _ < _, _))

/-- The guard of the last heading is dropped first. -/
def LastFirst : Prop := ∀ i < actions.length, ∀ g ∈ droppedAt? actions i, ∀ g' ∈ openBefore form actions i, g' ≤ g

instance : Decidable (LastFirst form actions) := inferInstanceAs (Decidable (∀ _ < _, _))

/-- The line of the action at a place. What cannot be written has none. -/
def lineAt (i : Nat) : String := (actions[i]?.bind fun a => form.line? (nesting form actions i) a.entry).getD ""

end

/-! ### Open headings -/

section
variable {form : Form} {actions : List Action} {i g : Nat}

theorem Form.Fits.mono {depth depth' : Nat} (h : form.Fits depth) (hle : depth' ≤ depth) : form.Fits depth' := by
  intro hhuman
  have := h hhuman
  omega

theorem Form.isSome_line?_iff {depth : Nat} {e : Entry} : (form.line? depth e).isSome ↔ form.Fits depth := by
  cases form with
  | human => simp [line?, Text.padding?, Fits]
  | json => simp [line?, Fits]

theorem lt_length_of_droppedAt? (h : droppedAt? actions i = some g) : i < actions.length := by
  obtain ⟨a, ha, -⟩ := Option.bind_eq_some_iff.mp h
  exact (List.getElem?_eq_some_iff.mp ha).1

theorem droppedAt?_eq {a : Action} (ha : actions[i]? = some a) : droppedAt? actions i = a.dropped? := by
  rw [droppedAt?, ha, Option.bind_some]

theorem headingAt_iff {a : Action} (ha : actions[i]? = some a) : HeadingAt actions i ↔ a.isHeading = true := by
  rw [HeadingAt, ha, Option.any_some]

/-- A heading is open after an action if it was open before or is just written, and is not just closed. -/
theorem mem_openBefore_succ : g ∈ openBefore form actions (i + 1) ↔
    (g ∈ openBefore form actions i ∨ g = i ∧ OpensAt form actions i) ∧ droppedAt? actions i ≠ some g := by
  cases ha : actions[i]? with
  | none => simp [openBefore, OpensAt, HeadingAt, droppedAt?, ha]
  | some a =>
    rw [droppedAt?_eq ha, OpensAt, headingAt_iff ha]
    cases a with
    | note n => simp [openBefore, ha, Action.isHeading, Action.dropped?]
    | heading n =>
      by_cases hfits : form.Fits (openBefore form actions i).card
      · simp [openBefore, ha, Action.isHeading, Action.dropped?, hfits, or_comm]
      · simp [openBefore, ha, Action.isHeading, Action.dropped?, hfits]
    | drop guard => simp [openBefore, ha, Action.isHeading, Action.dropped?, and_comm, eq_comm]

theorem lt_of_mem_openBefore (h : g ∈ openBefore form actions i) : g < i := by
  induction i with
  | zero => simp [openBefore] at h
  | succ i ih =>
    rcases (mem_openBefore_succ.mp h).1 with hopen | ⟨rfl, -⟩
    · exact Nat.lt_succ_of_lt (ih hopen)
    · exact Nat.lt_succ_self g

theorem Orderly.isOpen (h : Orderly form actions) (hd : droppedAt? actions i = some g) :
    g ∈ openBefore form actions i :=
  h i (lt_length_of_droppedAt? hd) g hd

theorem Orderly.lt (h : Orderly form actions) (hd : droppedAt? actions i = some g) : g < i :=
  lt_of_mem_openBefore (h.isOpen hd)

/-- What is open was written before, and its guard was not dropped before. -/
theorem Orderly.mem_openBefore (h : Orderly form actions) : g ∈ openBefore form actions i ↔
    g < i ∧ OpensAt form actions g ∧ ∀ k < i, droppedAt? actions k ≠ some g := by
  induction i with
  | zero => simp [openBefore]
  | succ i ih =>
    rw [mem_openBefore_succ, ih]
    constructor
    · rintro ⟨⟨hlt, hopens, hkept⟩ | ⟨rfl, hopens⟩, hnow⟩
      · refine ⟨Nat.lt_succ_of_lt hlt, hopens, fun k hk => ?_⟩
        rcases Nat.lt_succ_iff_lt_or_eq.mp hk with hk | rfl
        · exact hkept k hk
        · exact hnow
      · refine ⟨Nat.lt_succ_self g, hopens, fun k hk hdrop => ?_⟩
        -- A guard that is dropped was there before.
        have := h.lt hdrop
        omega
    · rintro ⟨hlt, hopens, hkept⟩
      refine ⟨?_, hkept i (Nat.lt_succ_self i)⟩
      rcases Nat.lt_succ_iff_lt_or_eq.mp hlt with hlt | rfl
      · exact Or.inl ⟨hlt, hopens, fun k hk => hkept k (Nat.lt_succ_of_lt hk)⟩
      · exact Or.inr ⟨rfl, hopens⟩

theorem nesting_of_no_drop (h : droppedAt? actions i = none) :
    nesting form actions i = (openBefore form actions i).card := by
  simp [nesting, h]

theorem nesting_of_drop (h : droppedAt? actions i = some g) :
    nesting form actions i = ((openBefore form actions i).erase g).card := by
  have hne : ∀ g', droppedAt? actions i ≠ some g' ↔ g' ≠ g := fun g' => by
    rw [h, Ne, Option.some.injEq, eq_comm]
  simp only [nesting, hne]
  rw [Finset.filter_ne']

/-- There is always room to close a heading. -/
theorem fits_pred (form : Form) (actions : List Action) (i : Nat) :
    form.Fits ((openBefore form actions i).card - 1) := by
  induction i with
  | zero => exact fun _ => Nat.zero_le _
  | succ i ih =>
    rw [openBefore]
    split
    · split
      · rename_i hfits
        have := Finset.card_insert_le i (openBefore form actions i)
        exact hfits.mono (by omega)
      · exact ih
    · rename_i guard _
      have := Finset.card_erase_le (s := openBefore form actions i) (a := guard)
      exact ih.mono (by omega)
    · exact ih

theorem Orderly.fits_of_drop (h : Orderly form actions) (hd : droppedAt? actions i = some g) :
    form.Fits (nesting form actions i) := by
  rw [nesting_of_drop hd, Finset.card_erase_of_mem (h.isOpen hd)]
  exact fits_pred form actions i

/-! ### One entry -/

/-- What an entry makes of the depth. If the depth is the number of open headings, the entry is written at the number of
    headings it is beneath, and the depth becomes the number of headings open after it. If it cannot be written, the
    same headings are open as before. -/
theorem Orderly.step (h : Orderly form actions) {a : Action} (ha : actions[i]? = some a) :
    a.entry.depthAt (openBefore form actions i).card = nesting form actions i ∧
      (form.Fits (nesting form actions i) →
        a.entry.depthAfter (openBefore form actions i).card = (openBefore form actions (i + 1)).card) ∧
      (¬form.Fits (nesting form actions i) → openBefore form actions (i + 1) = openBefore form actions i) := by
  have hdropped := droppedAt?_eq ha
  cases a with
  | note n =>
    have hsame : openBefore form actions (i + 1) = openBefore form actions i := by simp [openBefore, ha]
    exact ⟨(nesting_of_no_drop hdropped).symm, fun _ => by rw [hsame]; rfl, fun _ => hsame⟩
  | heading n =>
    have hnew : i ∉ openBefore form actions i := fun hmem => Nat.lt_irrefl i (lt_of_mem_openBefore hmem)
    rw [nesting_of_no_drop hdropped]
    refine ⟨rfl, fun hfits => ?_, fun hfits => by simp [openBefore, ha, hfits]⟩
    have hinsert : openBefore form actions (i + 1) = insert i (openBefore form actions i) := by
      simp [openBefore, ha, hfits]
    rw [hinsert, Finset.card_insert_of_notMem hnew]
    rfl
  | drop g =>
    have herase : openBefore form actions (i + 1) = (openBefore form actions i).erase g := by simp [openBefore, ha]
    have hcard := Finset.card_erase_of_mem (h.isOpen hdropped)
    refine ⟨?_, fun _ => ?_, fun hfits => absurd (h.fits_of_drop hdropped) hfits⟩
    · rw [nesting_of_drop hdropped, hcard]
      rfl
    · rw [herase, hcard]
      rfl

end

/-! ### A whole run -/

def State.page? : State → Option Page
  | .on page => some page
  | _ => none

/-- The page that the next entry is written on, if the journal is kept at all. -/
def page? (j : Journal) : Option Page :=
  match j.state with
  | .untouched => j.opened.page?
  | state => state.page?

theorem page?_write? {j : Journal} {p : Page} (h : j.page? = some p) (e : Entry) :
    (j.write? e).map page? = (p.write? e).map some := by
  obtain ⟨setting, refusal, state⟩ := j
  cases state with
  | untouched =>
    have hopened : (Journal.mk setting refusal .untouched).opened = .on p := by
      simp only [page?] at h
      cases hstate : (Journal.mk setting refusal .untouched).opened with
      | on page =>
        rw [hstate] at h
        cases h
        rfl
      | untouched =>
        rw [hstate] at h
        cases h
      | off complaint =>
        rw [hstate] at h
        cases h
    simp only [write?, hopened, Option.map_map]
    rfl
  | off complaint => cases h
  | on page =>
    cases h
    simp only [write?, Option.map_map]
    rfl

/-- The page after an entry was to be written. -/
def Page.attempt (p : Page) (e : Entry) : Page := (p.write? e).getD p

theorem page?_attempt {j : Journal} {p : Page} (h : j.page? = some p) (e : Entry) :
    (j.attempt e).page? = some (p.attempt e) := by
  have hwrite := page?_write? h e
  unfold attempt Page.attempt
  cases hj : j.write? e with
  | none =>
    cases hp : p.write? e with
    | none => exact h
    | some p' => simp [hj, hp] at hwrite
  | some j' =>
    cases hp : p.write? e with
    | none => simp [hj, hp] at hwrite
    | some p' => simpa [hj, hp] using hwrite

theorem page?_attemptAll {j : Journal} {p : Page} (h : j.page? = some p) (entries : List Entry) :
    (j.attemptAll entries).page? = some (entries.foldl Page.attempt p) := by
  induction entries generalizing j p with
  | nil => exact h
  | cons e entries ih => exact ih (page?_attempt h e)

section
variable {actions : List Action} {p : Page}

/-- The page after a number of actions: the depth is the number of open headings, and each action that could be written
    has its line. -/
theorem Orderly.page_eq (h : Orderly p.form actions) (hp : p.depth = 0) {i : Nat} (hi : i ≤ actions.length) :
    ((actions.take i).map Action.entry).foldl Page.attempt p =
      ⟨p.form, (openBefore p.form actions i).card,
        p.text ++ String.join ((List.range i).map (lineAt p.form actions))⟩ := by
  induction i with
  | zero =>
    obtain ⟨form, depth, text⟩ := p
    cases hp
    simp [openBefore]
  | succ i ih =>
    obtain ⟨a, ha⟩ : ∃ a, actions[i]? = some a := ⟨_, List.getElem?_eq_getElem (by omega)⟩
    obtain ⟨hat, hafter, hsame⟩ := h.step ha
    have hline : lineAt p.form actions i = (p.form.line? (nesting p.form actions i) a.entry).getD "" := by
      rw [lineAt, ha, Option.bind_some]
    rw [List.take_add_one, ha, Option.toList_some, List.map_append, List.foldl_append, ih (by omega), List.range_succ,
      List.map_append]
    simp only [List.map_singleton, List.foldl_cons, List.foldl_nil, Page.attempt, Page.write?, hat, hline]
    cases hwritten : p.form.line? (nesting p.form actions i) a.entry with
    | some line =>
      have hfits := Form.isSome_line?_iff.mp (Option.isSome_of_eq_some hwritten)
      simp [hafter hfits, String.join_append, String.append_assoc]
    | none =>
      have hfits : ¬p.form.Fits (nesting p.form actions i) := by
        intro hfits
        have hsome : (p.form.line? (nesting p.form actions i) a.entry).isSome := Form.isSome_line?_iff.mpr hfits
        rw [hwritten] at hsome
        cases hsome
      simp [hsame hfits, String.join_append]

/-- An action is written just if there are not too many headings above it. -/
theorem Orderly.isSome_write?_iff {j : Journal} (hj : j.page? = some p) (h : Orderly p.form actions) (hp : p.depth = 0)
    {i : Nat} {a : Action} (ha : actions[i]? = some a) :
    ((j.attemptAll ((actions.take i).map Action.entry)).write? a.entry).isSome ↔
      p.form.Fits (nesting p.form actions i) := by
  obtain ⟨hi, -⟩ := List.getElem?_eq_some_iff.mp ha
  have hpage := page?_attemptAll hj ((actions.take i).map Action.entry)
  rw [h.page_eq hp hi.le] at hpage
  have hsome := congrArg Option.isSome (page?_write? hpage a.entry)
  rw [Option.isSome_map, Option.isSome_map, Page.write?, Option.isSome_map] at hsome
  rw [hsome, (h.step ha).1, Form.isSome_line?_iff]

end

/-! ### From the last heading to the first -/

section
variable {form : Form} {actions : List Action} {i g : Nat}

theorem Orderly.openBefore_of_le (h : Orderly form actions) {k : Nat} (hopen : g ∈ openBefore form actions i)
    (hgk : g < k) (hki : k ≤ i) : g ∈ openBefore form actions k := by
  obtain ⟨-, hopens, hkept⟩ := h.mem_openBefore.mp hopen
  exact h.mem_openBefore.mpr ⟨hgk, hopens, fun m hm => hkept m (by omega)⟩

theorem HeadingAt.droppedAt?_eq (h : HeadingAt actions i) : droppedAt? actions i = none := by
  unfold HeadingAt at h
  unfold droppedAt?
  cases ha : actions[i]? with
  | none => rfl
  | some a =>
    rw [ha, Option.any_some] at h
    cases a with
    | heading n => rfl
    | note n => cases h
    | drop g => cases h

theorem OpensAt.fits (h : OpensAt form actions i) : form.Fits (nesting form actions i) := by
  rw [nesting_of_no_drop h.1.droppedAt?_eq]
  exact h.2

/-- While a heading is open, so are all that were open when it was written. -/
theorem Orderly.openBefore_subset (h : Orderly form actions) (hl : LastFirst form actions)
    (hd : droppedAt? actions i = some g) {k : Nat} (hgk : g < k) (hki : k ≤ i) :
    openBefore form actions g ⊆ openBefore form actions k := by
  have hopen := h.isOpen hd
  intro x hx
  obtain ⟨hxg, hopens, hkept⟩ := h.mem_openBefore.mp hx
  refine h.mem_openBefore.mpr ⟨by omega, hopens, fun m hm hdrop => ?_⟩
  rcases Nat.lt_trichotomy m g with hmg | rfl | hmg
  · exact hkept m hmg hdrop
  · rw [(h.mem_openBefore.mp hopen).2.1.1.droppedAt?_eq] at hdrop
    cases hdrop
  · -- The heading in question is open then, and written later, so its guard would have to go first.
    have := hl m (lt_length_of_droppedAt? hdrop) x hdrop g (h.openBefore_of_le hopen hmg (by omega))
    omega

theorem Orderly.nesting_of_end (h : Orderly form actions) (hl : LastFirst form actions)
    (hd : droppedAt? actions i = some g) : nesting form actions i = nesting form actions g := by
  have hopen := h.isOpen hd
  obtain ⟨hgi, ⟨hheading, -⟩, -⟩ := h.mem_openBefore.mp hopen
  have hsame : (openBefore form actions i).erase g = openBefore form actions g := by
    ext x
    rw [Finset.mem_erase]
    constructor
    · rintro ⟨hne, hx⟩
      have := hl i (lt_length_of_droppedAt? hd) g hd x hx
      exact h.openBefore_of_le hx (by omega) hgi.le
    · intro hx
      exact ⟨(lt_of_mem_openBefore hx).ne, h.openBefore_subset hl hd hgi (Nat.le_refl i) hx⟩
  rw [nesting_of_drop hd, nesting_of_no_drop hheading.droppedAt?_eq, hsame]

theorem Orderly.nesting_lt (h : Orderly form actions) (hl : LastFirst form actions) (hd : droppedAt? actions i = some g)
    {k : Nat} (hgk : g < k) (hki : k < i) : nesting form actions g < nesting form actions k := by
  have hopen := h.isOpen hd
  have hheading := (h.mem_openBefore.mp hopen).2.1.1
  -- What is still open after the action was open before it and is not what it closes.
  have hstays : ∀ x < k, x ∈ openBefore form actions (k + 1) →
      x ∈ {x ∈ openBefore form actions k | droppedAt? actions k ≠ some x} :=
    fun x hxk hx => Finset.mem_filter.mpr
      ⟨h.openBefore_of_le hx hxk (Nat.le_succ k), (h.mem_openBefore.mp hx).2.2 k (Nat.lt_succ_self k)⟩
  rw [nesting_of_no_drop hheading.droppedAt?_eq, nesting]
  refine Finset.card_lt_card ((Finset.ssubset_iff_of_subset fun x hx => ?_).mpr ⟨g, ?_, fun hg => ?_⟩)
  · have hxg := lt_of_mem_openBefore hx
    exact hstays x (by omega) (h.openBefore_subset hl hd (by omega) hki hx)
  · exact hstays g hgk (h.openBefore_of_le hopen (by omega) hki)
  · exact Nat.lt_irrefl g (lt_of_mem_openBefore hg)

end

/-! ### Indentation -/

def indentation (s : String) : Nat := (s.toList.takeWhile (· = ' ')).length

theorem indentation_of_line {depth : Nat} {e : Entry} {line : String} (h : Form.human.line? depth e = some line) :
    indentation line = 2 * depth := by
  have hfits : 2 * depth ≤ Text.maxPadding := Form.isSome_line?_iff.mp (Option.isSome_of_eq_some h) rfl
  have hline : ∃ rest, line.toList = List.replicate (2 * depth) ' ' ++ 'T' :: rest := by
    simp only [Form.line?, Text.padding?_of_le hfits, Option.map_some, Option.some.injEq] at h
    subst h
    simp only [Text.blanks, String.toList_append, String.toList_ofList, List.append_assoc]
    exact ⟨_, rfl⟩
  obtain ⟨rest, hrest⟩ := hline
  rw [indentation, hrest, List.takeWhile_append_of_pos (by simp)]
  simp

theorem indentation_lineAt {actions : List Action} {i : Nat} (hi : i < actions.length)
    (hfits : Form.human.Fits (nesting .human actions i)) :
    indentation (lineAt .human actions i) = 2 * nesting .human actions i := by
  rw [lineAt, List.getElem?_eq_getElem hi, Option.bind_some]
  obtain ⟨line, hline⟩ := Option.isSome_iff_exists.mp (Form.isSome_line?_iff.mpr hfits)
  rw [hline, Option.getD_some, indentation_of_line hline]

/-! ### Nesting -/

theorem Orderly.openBefore_end {form : Form} {actions : List Action} (h : Orderly form actions)
    (hall : ∀ g, OpensAt form actions g → ∃ i, droppedAt? actions i = some g) :
    openBefore form actions actions.length = ∅ := by
  refine Finset.eq_empty_of_forall_notMem fun g hg => ?_
  obtain ⟨-, hopens, hkept⟩ := h.mem_openBefore.mp hg
  obtain ⟨i, hi⟩ := hall g hopens
  exact hkept i (lt_length_of_droppedAt? hi) hi

/-- Headings nest exactly, as deep as they can be written. Let a journal that is kept start at depth zero, and let guards
    be dropped in any order, each at most once. At any time the depth is the number of headings that are open, and the
    text is the lines of what was written. An action is written at the number of headings that it is beneath, unless the
    journal is for people and these are too many; then nothing changes. A line ends a section only where one is open, so
    the depth never has to stop at zero, and it can always be written. When the guards of all headings that were written
    are dropped, the depth is zero again. The indentation shows the number of headings. If the guard of the last heading
    is always dropped first, the end of a section is indented as its start is, and all between them more. -/
theorem headings_nest_unless_deep {j : Journal} {p : Page} {actions : List Action} (hj : j.page? = some p)
    (hp : p.depth = 0) (h : Orderly p.form actions) :
    (∀ i ≤ actions.length, (j.attemptAll ((actions.take i).map Action.entry)).page? =
      some ⟨p.form, (openBefore p.form actions i).card,
        p.text ++ String.join ((List.range i).map (lineAt p.form actions))⟩) ∧
    (∀ i a, actions[i]? = some a → a.entry.depthAt (openBefore p.form actions i).card = nesting p.form actions i ∧
      (((j.attemptAll ((actions.take i).map Action.entry)).write? a.entry).isSome ↔
        p.form.Fits (nesting p.form actions i))) ∧
    (∀ i g, droppedAt? actions i = some g →
      0 < (openBefore p.form actions i).card ∧ p.form.Fits (nesting p.form actions i)) ∧
    ((∀ g, OpensAt p.form actions g → ∃ i, droppedAt? actions i = some g) →
      (j.attemptAll (actions.map Action.entry)).page?.map Page.depth = some 0) ∧
    (p.form = .human → ∀ i < actions.length, p.form.Fits (nesting p.form actions i) →
      indentation (lineAt p.form actions i) = 2 * nesting p.form actions i) ∧
    (p.form = .human → LastFirst p.form actions → ∀ i g, droppedAt? actions i = some g →
      indentation (lineAt p.form actions i) = indentation (lineAt p.form actions g) ∧
      ∀ k, g < k → k < i → p.form.Fits (nesting p.form actions k) →
        indentation (lineAt p.form actions g) < indentation (lineAt p.form actions k)) := by
  refine ⟨fun i hi => ?_, fun i a ha => ⟨(h.step ha).1, h.isSome_write?_iff hj hp ha⟩, fun i g hd => ?_, fun hall => ?_,
    fun hhuman i hi hfits => ?_, fun hhuman hl i g hd => ?_⟩
  · rw [page?_attemptAll hj, h.page_eq hp hi]
  · exact ⟨Finset.card_pos.mpr ⟨g, h.isOpen hd⟩, h.fits_of_drop hd⟩
  · have hpage := h.page_eq hp (Nat.le_refl actions.length)
    rw [List.take_length] at hpage
    rw [page?_attemptAll hj, hpage, h.openBefore_end hall, Finset.card_empty]
    rfl
  · rw [hhuman] at hfits ⊢
    exact indentation_lineAt hi hfits
  · have hi := lt_length_of_droppedAt? hd
    have hg := h.lt hd
    have hend := h.fits_of_drop hd
    have hstart := (h.mem_openBefore.mp (h.isOpen hd)).2.1.fits
    rw [hhuman] at h hl hend hstart ⊢
    refine ⟨?_, fun k hgk hki hfits => ?_⟩
    · rw [indentation_lineAt hi hend, indentation_lineAt (hg.trans hi) hstart, h.nesting_of_end hl hd]
    · have := h.nesting_lt hl hd hgk hki
      rw [indentation_lineAt (hg.trans hi) hstart, indentation_lineAt (hki.trans hi) hfits]
      omega

/-- Two headings whose guards are dropped from the first to the last. In `stacked` the last goes first. -/
def crossed : List Action :=
  [.heading ⟨"outer", []⟩, .heading ⟨"inner", []⟩, .note ⟨"in both", []⟩, .drop 0, .note ⟨"in one", []⟩, .drop 1]

def stacked : List Action :=
  [.heading ⟨"outer", []⟩, .heading ⟨"inner", []⟩, .note ⟨"in both", []⟩, .drop 1, .note ⟨"in one", []⟩, .drop 0]

theorem crossed_and_stacked_headings_nest :
    (Orderly .human crossed ∧ ¬LastFirst .human crossed ∧
      ((new (some "1") fun _ => none).attemptAll ((crossed.take 4).map Action.entry)).page?.map Page.depth = some 1) ∧
    Orderly .human stacked ∧ LastFirst .human stacked ∧
      indentation (lineAt .human stacked 5) = indentation (lineAt .human stacked 0) ∧
      indentation (lineAt .human stacked 0) < indentation (lineAt .human stacked 4) := by
  have hpage : (new (some "1") fun _ => none).page? = some ⟨.human, 0, ""⟩ := rfl
  have hcrossed : Orderly .human crossed := by decide
  have hstacked : Orderly .human stacked := by decide
  have hlast : LastFirst .human stacked := by decide
  refine ⟨⟨hcrossed, by decide, ?_⟩, hstacked, hlast, ?_⟩
  · rw [(headings_nest_unless_deep hpage rfl hcrossed).1 4 (by decide)]
    decide
  · obtain ⟨hends, hbetween⟩ := (headings_nest_unless_deep hpage rfl hstacked).2.2.2.2.2 rfl hlast 5 0 rfl
    exact ⟨hends, hbetween 4 (by decide) (by decide) (by decide)⟩

/-! ### Headings beneath headings -/

/-- A number of headings, each beneath the one before. -/
def headings (n : Nat) : List Action := List.replicate n (.heading ⟨"deeper", []⟩)

theorem getElem?_headings {n i : Nat} (h : i < n) : (headings n)[i]? = some (.heading ⟨"deeper", []⟩) := by
  simp [headings, h]

theorem droppedAt?_headings (n i : Nat) : droppedAt? (headings n) i = none := by
  by_cases h : i < n
  · rw [droppedAt?_eq (getElem?_headings h)]
    rfl
  · simp [droppedAt?, headings, h]

/-- All of them are open as long as they can be written. -/
theorem openBefore_headings {form : Form} {n i : Nat} (hi : i ≤ n) (hfits : form.Fits (i - 1)) :
    openBefore form (headings n) i = Finset.range i := by
  induction i with
  | zero => rfl
  | succ i ih =>
    have hbefore := ih (by omega) (hfits.mono (by omega))
    have hroom : form.Fits (openBefore form (headings n) i).card := by
      rw [hbefore, Finset.card_range]
      exact hfits
    rw [openBefore, getElem?_headings hi, Finset.range_add_one, ← hbefore]
    simp [hroom]

/-- The last of 32769 headings beneath each other is not written. -/
theorem not_every_heading_is_written :
    ¬∀ (j : Journal) (p : Page) (actions : List Action), j.page? = some p → p.depth = 0 → Orderly p.form actions →
      ∀ i a, actions[i]? = some a →
        ((j.attemptAll ((actions.take i).map Action.entry)).write? a.entry).isSome := by
  intro hall
  have hpage : (new (some "human") fun _ => none).page? = some ⟨.human, 0, ""⟩ := rfl
  have horderly : Orderly .human (headings 0x8001) := by
    intro i _ g hg
    rw [droppedAt?_headings] at hg
    cases hg
  have hnesting : nesting .human (headings 0x8001) 0x8000 = 0x8000 := by
    rw [nesting_of_no_drop (droppedAt?_headings _ _), openBefore_headings (by decide) (by decide), Finset.card_range]
  have hlast := getElem?_headings (show 0x8000 < 0x8001 by decide)
  have hfits := (horderly.isSome_write?_iff hpage rfl hlast).mp (hall _ _ _ hpage rfl horderly _ _ hlast)
  rw [hnesting] at hfits
  exact absurd hfits (by decide)

end Journal
end Backend
