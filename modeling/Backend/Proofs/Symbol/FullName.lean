import Backend.Proofs.Symbol.Scopes
import Mathlib.Data.List.Induction

/-! Full names as keys. A full name is made on the way up from a symbol to the root; taken apart at its points it is a way
    down, from child to child. If all names on the way are plain, one comes back to the symbol. So full names tell such
    symbols apart, and a text that leads somewhere at all is the full name of the symbol it leads to. -/

namespace Backend
namespace SymbolTable

/-- A name that can stand between points. -/
def IsPlain (name : String) : Prop := name ≠ "" ∧ '.' ∉ name.toList

instance (name : String) : Decidable (IsPlain name) := inferInstanceAs (Decidable (_ ∧ _))

/-- The pieces of a text between its points. The empty text has none. -/
def pieces (text : String) : List String :=
  if text.isEmpty then [] else (Text.split '.' text.toList).map String.ofList

/-- Names with points between them. -/
def dotted (names : List String) : String := String.ofList (Text.join '.' (names.map String.toList))

/-- The symbol that one comes to by going from child to child. -/
def follow? (t : SymbolTable) (id : SymbolId) (names : List String) : Option SymbolId := names.foldlM t.child? id

/-- The symbol that a text leads to from the root. -/
def find? (t : SymbolTable) (text : String) : Option SymbolId := t.follow? root (pieces text)

/-- The symbol and all scopes around it, but for the root, have plain names. -/
def PlainPath (t : SymbolTable) (id : SymbolId) : Prop := ∀ j ∈ id :: t.ancestors id, j ≠ root → IsPlain (t.name j)

instance (t : SymbolTable) (id : SymbolId) : Decidable (t.PlainPath id) := inferInstanceAs (Decidable (∀ j ∈ _, _))

def pathNames (t : SymbolTable) (id : SymbolId) : List String :=
  ((id :: t.ancestors id).reverse.map t.name).filter (!·.isEmpty)

theorem fullName_eq_dotted (t : SymbolTable) (id : SymbolId) : t.fullName id = dotted (t.pathNames id) := rfl

/-! ### Pieces -/

theorem dotted_pieces (text : String) : dotted (pieces text) = text := by
  unfold pieces
  split
  · rename_i h
    simp only [String.isEmpty_iff] at h
    simp [h, dotted, Text.join]
  · have hback : ((Text.split '.' text.toList).map String.ofList).map String.toList = Text.split '.' text.toList := by
      simp [Function.comp_def]
    rw [dotted, hback, Text.join_split, String.ofList_toList]

theorem not_mem_of_mem_pieces {text name : String} (h : name ∈ pieces text) : '.' ∉ name.toList := by
  unfold pieces at h
  split at h
  · cases h
  · obtain ⟨piece, hpiece, rfl⟩ := List.mem_map.mp h
    rw [String.toList_ofList]
    exact Text.not_mem_of_mem_split hpiece

theorem dotted_ne_empty {names : List String} (hne : names ≠ []) (h : ∀ name ∈ names, name ≠ "") : dotted names ≠ "" := by
  intro hempty
  cases names with
  | nil => exact hne rfl
  | cons name names =>
    have hname : name.toList ≠ [] := by simpa using h name List.mem_cons_self
    have hjoin : Text.join '.' ((name :: names).map String.toList) = [] := by
      simpa [dotted] using congrArg String.toList hempty
    cases names with
    | nil => exact hname hjoin
    | cons => simp [Text.join] at hjoin

theorem pieces_dotted {names : List String} (h : ∀ name ∈ names, IsPlain name) : pieces (dotted names) = names := by
  by_cases hnil : names = []
  · simp [hnil, dotted, Text.join, pieces]
  · have hsplit : Text.split '.' (Text.join '.' (names.map String.toList)) = names.map String.toList := by
      refine Text.split_join (by simpa using hnil) ?_
      intro l hl
      obtain ⟨name, hname, rfl⟩ := List.mem_map.mp hl
      exact (h name hname).2
    have hne := dotted_ne_empty hnil fun name hname => (h name hname).1
    rw [pieces, if_neg (by simpa using hne), dotted, String.toList_ofList, hsplit]
    simp [Function.comp_def]

/-! ### The way up -/

namespace WellFormed
variable {t : SymbolTable} {i p : SymbolId} {names : List String}

theorem ancestors_root (wf : t.WellFormed) : t.ancestors root = [] := by rw [ancestors, wf.root_parent]

theorem pathNames_root (wf : t.WellFormed) : t.pathNames root = [] := by
  simp [pathNames, wf.ancestors_root, wf.root_name]

theorem plainPath_root (wf : t.WellFormed) : t.PlainPath root := by
  intro j hj hne
  rw [wf.ancestors_root] at hj
  exact absurd (List.mem_singleton.mp hj) hne

theorem pathNames_of_parent (wf : t.WellFormed) (hp : t.parent? i = some p) (hname : t.name i ≠ "") :
    t.pathNames i = t.pathNames p ++ [t.name i] := by
  rw [pathNames, wf.ancestors_of_parent hp, List.reverse_cons, List.map_append, List.filter_append, ← pathNames]
  simp [hname]

theorem plainPath_of_parent (wf : t.WellFormed) (hp : t.parent? i = some p) :
    t.PlainPath i ↔ IsPlain (t.name i) ∧ t.PlainPath p := by
  have hne : i ≠ root := by
    rintro rfl
    rw [wf.root_parent] at hp
    cases hp
  unfold PlainPath
  rw [wf.ancestors_of_parent hp, List.forall_mem_cons]
  exact and_congr_left fun _ => ⟨fun h => h hne, fun h _ => h⟩

theorem isPlain_of_mem_pathNames (wf : t.WellFormed) (h : t.PlainPath i) {name : String} (hname : name ∈ t.pathNames i) :
    IsPlain name := by
  obtain ⟨hmem, hne⟩ := List.mem_filter.mp hname
  obtain ⟨j, hj, rfl⟩ := List.mem_map.mp hmem
  refine h j (List.mem_reverse.mp hj) ?_
  rintro rfl
  simp [wf.root_name] at hne

/-! ### The way down -/

/-- The last step down is taken to a child of that name, and is the first step up. -/
theorem child?_eq_some_iff (wf : t.WellFormed) {name : String} :
    t.child? p name = some i ↔ name ≠ "" ∧ t.parent? i = some p ∧ t.name i = name := by
  rw [wf.named, wf.mem_children_iff]

/-- Names without points lead from the root to the symbol whose path they are, if its path is plain, and nowhere else. -/
theorem follow?_eq_some_iff (wf : t.WellFormed) (hdots : ∀ name ∈ names, '.' ∉ name.toList) :
    t.follow? root names = some i ↔ i < t.size ∧ t.PlainPath i ∧ t.pathNames i = names := by
  -- On both sides the last name is the symbol's own and those before it lead to its parent.
  induction names using List.reverseRecOn generalizing i with
  | nil =>
    constructor
    · intro h
      cases h
      exact ⟨wf.root_lt, wf.plainPath_root, wf.pathNames_root⟩
    · rintro ⟨hi, hplain, hnames⟩
      by_cases hroot : i = root
      · rw [hroot]
        rfl
      · obtain ⟨p, -, hp, -⟩ := wf.parent i hi hroot
        obtain ⟨⟨hname, -⟩, -⟩ := (wf.plainPath_of_parent hp).mp hplain
        rw [wf.pathNames_of_parent hp hname] at hnames
        simp at hnames
  | append_singleton names name ih =>
    obtain ⟨hbefore, hlast⟩ := List.forall_mem_append.mp hdots
    have hdot : '.' ∉ name.toList := hlast name (List.mem_singleton_self name)
    have hstep : t.follow? root (names ++ [name]) = some i ↔
        ∃ p, t.follow? root names = some p ∧ t.child? p name = some i := by
      simp [follow?, List.foldlM_append, Option.bind_eq_some_iff]
    rw [hstep]
    constructor
    · rintro ⟨p, hfollow, hchild⟩
      obtain ⟨-, hplain, hnames⟩ := (ih hbefore).mp hfollow
      obtain ⟨hne, hp, rfl⟩ := wf.child?_eq_some_iff.mp hchild
      refine ⟨lt_size_of_parent? hp, (wf.plainPath_of_parent hp).mpr ⟨⟨hne, hdot⟩, hplain⟩, ?_⟩
      rw [wf.pathNames_of_parent hp hne, hnames]
    · rintro ⟨hi, hplain, hnames⟩
      have hroot : i ≠ root := by
        rintro rfl
        rw [wf.pathNames_root] at hnames
        simp at hnames
      obtain ⟨p, hlt, hp, -⟩ := wf.parent i hi hroot
      obtain ⟨⟨hne, -⟩, hplain'⟩ := (wf.plainPath_of_parent hp).mp hplain
      rw [wf.pathNames_of_parent hp hne] at hnames
      obtain ⟨hnames', hname⟩ := List.append_inj' hnames rfl
      cases hname
      exact ⟨p, (ih hbefore).mpr ⟨Nat.lt_trans hlt hi, hplain', hnames'⟩, wf.child?_eq_some_iff.mpr ⟨hne, hp, rfl⟩⟩

/-- A text leads to a symbol just if the symbol's path is plain and the text is its full name. -/
theorem find?_eq_some_iff (wf : t.WellFormed) {text : String} :
    t.find? text = some i ↔ i < t.size ∧ t.PlainPath i ∧ t.fullName i = text := by
  have hdots : ∀ name ∈ pieces text, '.' ∉ name.toList := fun name => not_mem_of_mem_pieces
  rw [find?, wf.follow?_eq_some_iff hdots]
  refine and_congr_right fun _ => and_congr_right fun hplain => ?_
  rw [fullName_eq_dotted]
  constructor
  · intro h
    rw [h, dotted_pieces]
  · rintro rfl
    rw [pieces_dotted fun name => wf.isPlain_of_mem_pathNames hplain]

end WellFormed

/-- The full name of a symbol whose path is plain is a key: taken apart at its points and followed from child to child it
    leads from the root to the symbol, no other symbol with a plain path has it, and whatever text leads to the symbol is
    this one. -/
theorem full_name_leads_back (rootToken : TokenId) (additions : List Addition) (id : SymbolId)
    (hid : id < (grown rootToken additions).size) (hplain : (grown rootToken additions).PlainPath id) :
    let t := grown rootToken additions
    t.find? (t.fullName id) = some id ∧
    (∀ other < t.size, t.PlainPath other → t.fullName other = t.fullName id → other = id) ∧
    ∀ text, t.find? text = some id → text = t.fullName id := by
  intro t
  have wf : t.WellFormed := WellFormed.grown rootToken additions
  have hfind : t.find? (t.fullName id) = some id := wf.find?_eq_some_iff.mpr ⟨hid, hplain, rfl⟩
  refine ⟨hfind, ?_, ?_⟩
  · intro other hother hplain' hsame
    have hfind' : t.find? (t.fullName id) = some other := wf.find?_eq_some_iff.mpr ⟨hother, hplain', hsame⟩
    exact Option.some.inj (hfind'.symm.trans hfind)
  · intro text htext
    obtain ⟨-, -, hname⟩ := wf.find?_eq_some_iff.mp htext
    exact hname.symm

/-- Two methods of one name in types of one name, beside a namespace that is not named and a name with a point in it. -/
def namesakes : List Addition :=
  [⟨0, "Geo", .nameSpace, 0⟩, ⟨0, "", .nameSpace, 0⟩, ⟨1, "Box", .type, 0⟩, ⟨3, "Open", .method, 0⟩,
    ⟨2, "Geo", .nameSpace, 0⟩, ⟨0, "Box", .type, 0⟩, ⟨6, "Open", .method, 0⟩, ⟨0, "Geo.Box", .type, 0⟩]

theorem namesakes_full_name_leads_back :
    let t := grown 0 namesakes
    (4 < t.size ∧ t.PlainPath 4 ∧ t.fullName 4 = "Geo.Box.Open") ∧
    t.find? (t.fullName 4) = some 4 ∧
    (∀ other < t.size, t.PlainPath other → t.fullName other = t.fullName 4 → other = 4) ∧
    ∀ text, t.find? text = some 4 → text = t.fullName 4 := by
  have hid : 4 < (grown 0 namesakes).size := by decide +kernel
  have hplain : (grown 0 namesakes).PlainPath 4 := by decide +kernel
  exact ⟨⟨hid, hplain, by decide +kernel⟩, full_name_leads_back 0 namesakes 4 hid hplain⟩

-- Without plain names two symbols may share a full name.
example :
    let t := grown 0 [⟨0, "Geo", .nameSpace, 0⟩, ⟨0, "", .nameSpace, 0⟩, ⟨2, "Geo", .nameSpace, 0⟩, ⟨1, "Box", .type, 0⟩,
      ⟨0, "Geo.Box", .type, 0⟩]
    t.fullName 1 = t.fullName 3 ∧ t.fullName 4 = t.fullName 5 := by
  decide +kernel

end SymbolTable
end Backend
