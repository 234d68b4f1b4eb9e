import Backend.Proofs.Source.Excerpt
import Backend.Proofs.Source.Handles
import Backend.Proofs.Symbol.Reverification

/-! Rendering the errors of a table. Tokens stand at pieces of their files, and an error is raised at the place of its
    token. So whatever is done with tokens and symbols, and however often names are verified, an error that cannot be
    rendered is one whose lines are cramped. -/

namespace Backend

/-! ### Tokens and their errors -/

/-- The token stands nowhere or at a piece of its file, and its error at the same place. -/
structure Token.Sourced (t : Token) : Prop where
  piece : ∀ l, t.location = some l → l.span.IsPiece l.file.contents.toList
  error : ∀ d, t.error = some d → d.location = t.location

theorem Token.Sourced.noted {t : Token} (h : t.Sourced) (messages : List String) : (t.noted messages).Sourced := by
  refine ⟨h.piece, fun d hd => ?_⟩
  rcases Option.or_eq_some_iff.mp hd with hold | ⟨-, hnew⟩
  · exact h.error d hold
  · obtain ⟨m, -, rfl⟩ := Option.map_eq_some_iff.mp hnew
    rfl

theorem Call.sourced {call : Call} {token : Token} (h : call.token? = some token) : token.Sourced := by
  cases call with
  | synthetic text =>
    cases h
    exact ⟨nofun, nofun⟩
  | ofSpan file span =>
    have hpiece : span.IsPiece file.contents.toList := Token.isSome_ofSpan?_iff.mp (Option.isSome_of_eq_some h)
    obtain ⟨text, -, rfl⟩ := Option.map_eq_some_iff.mp h
    refine ⟨fun l hl => ?_, nofun⟩
    cases hl
    exact hpiece
  | clone | addError => cases h

namespace TokenPool
variable {pool : TokenPool}

def Sourced (pool : TokenPool) : Prop := ∀ id token, pool.get? id = some token → token.Sourced

theorem sourced_empty : empty.Sourced := by
  intro id token h
  simp [get?, empty] at h

theorem Sourced.create (h : pool.Sourced) {token : Token} (htoken : token.Sourced) : (pool.create token).2.Sourced := by
  intro id token' hget
  rw [get?_create] at hget
  split at hget
  · cases hget
    exact htoken
  · exact h id token' hget

/-- Nothing but messages comes in. -/
theorem Sourced.of_noted (h : pool.Sourced) {pool' : TokenPool} {messages : TokenId → List String}
    (hpool : ∀ id, pool'.get? id = (pool.get? id).map (·.noted (messages id))) : pool'.Sourced := by
  intro id token hget
  rw [hpool] at hget
  obtain ⟨token', htoken', rfl⟩ := Option.map_eq_some_iff.mp hget
  exact (h id token' htoken').noted _

theorem Sourced.perform (h : pool.Sourced) (handles : List TokenId) (call : Call) :
    (Desk.perform ⟨pool, handles⟩ call).2.pool.Sourced := by
  rcases Desk.perform_cases handles call with
    ⟨token, htoken, hdoes⟩ | ⟨g, id, -, -, hdoes⟩ | ⟨h', m, id, -, -, hdoes⟩ | hdoes <;> rw [hdoes pool]
  · exact h.create (Call.sourced htoken)
  · exact h
  · exact h.of_noted (get?_addError pool id m)
  · exact h

end TokenPool

/-! ### Sessions -/

/-- What is done by a front end: a call about tokens, or a step with the table. -/
inductive Action where
  | call (call : Call)
  | step (step : Naming.Step)

/-- A table and the tokens, and the token of each handle. -/
structure Session where
  progress : Naming.Progress
  handles : List TokenId

namespace Session

def next (s : Session) : Action → Session
  | .call call =>
    let desk := (Desk.perform ⟨s.progress.pool, s.handles⟩ call).2
    ⟨{ s.progress with pool := desk.pool }, desk.handles⟩
  | .step step => { s with progress := s.progress.next step }

/-- What there is after some actions, the root being all there was in the table, and no tokens. -/
def after (rootToken : TokenId) (actions : List Action) : Session :=
  actions.foldl next ⟨⟨.new rootToken, .empty, []⟩, []⟩

def diagnostics (s : Session) : List Diagnostic := s.progress.table.diagnostics s.progress.pool

theorem sourced_next {s : Session} (h : s.progress.pool.Sourced) (action : Action) :
    (s.next action).progress.pool.Sourced := by
  cases action with
  | call call => exact h.perform s.handles call
  | step step =>
    cases step with
    | add a => exact h
    | verify => exact h.of_noted (Naming.verify_notes s.progress.table s.progress.pool).2

theorem sourced_after (rootToken : TokenId) (actions : List Action) :
    (after rootToken actions).progress.pool.Sourced :=
  List.foldlRecOn (motive := fun s : Session => s.progress.pool.Sourced) actions next TokenPool.sourced_empty
    fun _ h action _ => sourced_next h action

theorem exists_token_of_mem {s : Session} {d : Diagnostic} (h : d ∈ s.diagnostics) :
    ∃ id token, s.progress.pool.get? id = some token ∧ token.error = some d := by
  obtain ⟨i, -, hi⟩ := List.mem_filterMap.mp h
  obtain ⟨symbol, -, herror⟩ := Option.bind_eq_some_iff.mp hi
  obtain ⟨token, htoken, hd⟩ := Option.bind_eq_some_iff.mp herror
  exact ⟨symbol.token, token, htoken, hd⟩

theorem piece_of_mem {rootToken : TokenId} {actions : List Action} {d : Diagnostic}
    (h : d ∈ (after rootToken actions).diagnostics) {l : Location} (hl : d.location = some l) :
    l.span.IsPiece l.file.contents.toList := by
  obtain ⟨id, token, htoken, hd⟩ := exists_token_of_mem h
  have hsourced := sourced_after rootToken actions id token htoken
  exact hsourced.piece l (hsourced.error d hd ▸ hl)

/-- A span makes a token just if it has its ends between characters of the file, and just then there is a rendering at
    that place, in any level and with any message, unless the lines are cramped. They are not if none is longer than the
    columns for code, or if the span starts in the code of a line that is indented by spaces. So of the errors that a
    table collects, all can be rendered but those whose lines are cramped. -/
theorem errors_render_unless_cramped (file : SourceFile) (span : Span) (rootToken : TokenId) (actions : List Action) :
    ((Token.ofSpan? file span).isSome ↔ span.IsPiece file.contents.toList) ∧
    (∀ level message colour, (Diagnostic.render? ⟨level, some ⟨file, span⟩, message⟩ colour).isSome ↔
      (Token.ofSpan? file span).isSome ∧ ¬Location.Cramped ⟨file, span⟩) ∧
    (∀ e, Excerpt.ofSpan? file.contents.toList span = some e → e.IsShort ∨ e.StartsInCode →
      ¬Location.Cramped ⟨file, span⟩) ∧
    ∀ d ∈ (after rootToken actions).diagnostics, ∀ colour,
      (d.render? colour).isSome ↔ ∀ l, d.location = some l → ¬l.Cramped := by
  refine ⟨Token.isSome_ofSpan?_iff, fun level message colour => ?_, ?_, ?_⟩
  · rw [Diagnostic.isSome_render?_at_iff, Token.isSome_ofSpan?_iff]
  · rintro e he hroom ⟨e', he', hcramped⟩
    cases he.symm.trans he'
    rcases hroom with hshort | hcode
    · exact hshort.not_cramped hcramped
    · exact hcode.not_cramped hcramped
  · intro d hd colour
    rw [Diagnostic.isSome_render?_iff]
    exact forall_congr' fun l => imp_congr_right fun hl => and_iff_right (piece_of_mem hd hl)

/-! ### Long lines behind a long indentation -/

/-- A root that stands nowhere, a token of a span, a symbol that holds it, and an error raised on it. -/
def raised (file : SourceFile) (span : Span) (message : String) : List Action :=
  [.call (.synthetic ""), .call (.ofSpan file span), .step (.add ⟨SymbolTable.root, "x", .field, 1⟩),
    .call (.addError 1 message)]

theorem mem_diagnostics_of_raised {file : SourceFile} {span : Span} (h : (Token.ofSpan? file span).isSome)
    (m : String) : ⟨.error, some ⟨file, span⟩, m⟩ ∈ (after 0 (raised file span m)).diagnostics := by
  obtain ⟨token, htoken⟩ := Option.isSome_iff_exists.mp h
  obtain ⟨text, -, rfl⟩ := Option.map_eq_some_iff.mp htoken
  have hcall : (Call.ofSpan file span).token? = some ⟨text, some ⟨file, span⟩, none⟩ := htoken
  have hroot : Desk.perform ⟨.empty, []⟩ (.synthetic "") = Desk.hand [] ⟨#[.synthetic ""]⟩ 0 := rfl
  have hplaced : Desk.perform ⟨⟨#[.synthetic ""]⟩, [0]⟩ (.ofSpan file span) =
      Desk.hand [0] ⟨#[.synthetic "", ⟨text, some ⟨file, span⟩, none⟩]⟩ 1 := Desk.perform_of_token? hcall _
  rw [after, raised, List.foldl_cons, next, hroot, List.foldl_cons, next, Desk.hand, List.nil_append, hplaced]
  exact List.mem_singleton_self _

/-- One line with 40 arrows, which take three bytes each, behind an indentation of 27 columns. -/
def arrows : SourceFile := ⟨"p.sil", String.ofList (List.replicate 27 ' ' ++ List.replicate 40 '→')⟩

theorem toList_arrows : arrows.contents.toList = List.replicate 27 ' ' ++ List.replicate 40 '→' := String.toList_ofList

def indentation : Span := ⟨0, 5, by decide⟩

theorem indentation_isPiece : indentation.IsPiece arrows.contents.toList :=
  ⟨[], List.replicate 5 ' ', List.replicate 22 ' ' ++ List.replicate 40 '→', toList_arrows, rfl, rfl⟩

theorem indentation_cramped : Location.Cramped ⟨arrows, indentation⟩ := by
  unfold Location.Cramped
  rw [toList_arrows]
  decide +kernel

/-- The line of arrows is cramped for a token in its indentation, so there are tokens whose errors cannot be rendered,
    and tables that collect them. -/
theorem not_all_errors_render :
    (¬∀ file span level message colour, (Token.ofSpan? file span).isSome ↔
      (Diagnostic.render? ⟨level, some ⟨file, span⟩, message⟩ colour).isSome) ∧
    ¬∀ actions, ∀ d ∈ (after 0 (.call (.synthetic "") :: actions)).diagnostics, ∀ colour, (d.render? colour).isSome := by
  have hmade : (Token.ofSpan? arrows indentation).isSome := Token.isSome_ofSpan?_iff.mpr indentation_isPiece
  have hfails : ∀ level message colour, ¬(Diagnostic.render? ⟨level, some ⟨arrows, indentation⟩, message⟩ colour).isSome :=
    fun level message colour hrender => (Diagnostic.isSome_render?_at_iff.mp hrender).2 indentation_cramped
  constructor
  · intro h
    exact hfails .error "unexpected" false ((h _ _ _ _ _).mp hmade)
  · intro h
    exact hfails .error "unexpected" false (h _ _ (mem_diagnostics_of_raised hmade "unexpected") false)

def firstArrow : Span := ⟨27, 30, by decide⟩

theorem firstArrow_errors_render : (Token.ofSpan? arrows firstArrow).isSome ∧
    (∀ level message colour, (Diagnostic.render? ⟨level, some ⟨arrows, firstArrow⟩, message⟩ colour).isSome) ∧
    ∀ colour, ∃ d ∈ (after 0 (raised arrows firstArrow "unexpected")).diagnostics, (d.render? colour).isSome := by
  obtain ⟨hpiece, hrenders, hroom, herrors⟩ :=
    errors_render_unless_cramped arrows firstArrow 0 (raised arrows firstArrow "unexpected")
  have hmade : (Token.ofSpan? arrows firstArrow).isSome :=
    hpiece.mpr ⟨List.replicate 27 ' ', ['→'], List.replicate 39 '→', toList_arrows, rfl, rfl⟩
  have hexcerpt : Excerpt.ofSpan? arrows.contents.toList firstArrow =
      some ⟨1, [⟨List.replicate 27 ' ' ++ List.replicate 40 '→', 0⟩], 27, 30⟩ := by
    rw [toList_arrows]
    rfl
  have hcode : ¬Location.Cramped ⟨arrows, firstArrow⟩ :=
    hroom _ hexcerpt (Or.inr ⟨27, '→', List.replicate 39 '→', rfl, by decide, by decide⟩)
  refine ⟨hmade, fun level message colour => (hrenders level message colour).mpr ⟨hmade, hcode⟩, fun colour => ?_⟩
  have hmem := mem_diagnostics_of_raised hmade "unexpected"
  refine ⟨_, hmem, (herrors _ hmem colour).mpr fun l hl => ?_⟩
  cases hl
  exact hcode

end Session
end Backend
