import Backend.Proofs.Source.Token
import Mathlib.Data.List.Nodup
import Mathlib.Logic.Relation

/-! Handles on tokens. Clients make tokens, clone the handles they have and attach errors through them. Each call takes
    effect at once, so whoever makes the calls, they come one after the other, and what can happen is told by all lists
    of calls. The desk that serves them knows no more than a token for each handle; what it has kept of a history is
    where each handle descends from and which messages came in for each token. -/

namespace Backend

/-- What a client can ask for. Handles have numbers, in the order they are made. -/
inductive Call where
  | synthetic (text : String)
  | ofSpan (file : SourceFile) (span : Span)
  | clone (handle : Nat)
  | addError (handle : Nat) (message : String)

/-- What a client gets: a new handle, or whether it was this error that was attached. A span that is no piece of its
    file is refused, and so is a handle that was not made. -/
inductive Reply where
  | handle (number : Nat)
  | attached (first : Bool)
  | refused

/-- The token that a call makes, if it makes one. -/
def Call.token? : Call → Option Token
  | .synthetic text => some (.synthetic text)
  | .ofSpan file span => Token.ofSpan? file span
  | _ => none

/-- All tokens, and the token of each handle. -/
structure Desk where
  pool : TokenPool
  handles : List TokenId

namespace Desk

def empty : Desk := ⟨.empty, []⟩

def hand (handles : List TokenId) (pool : TokenPool) (id : TokenId) : Reply × Desk :=
  (.handle handles.length, ⟨pool, handles ++ [id]⟩)

def perform (d : Desk) : Call → Reply × Desk
  | .clone h =>
    match d.handles[h]? with
    | some id => hand d.handles d.pool id
    | none => (.refused, d)
  | .addError h message =>
    match d.handles[h]? with
    | some id => (.attached (d.pool.addError id message).1, { d with pool := (d.pool.addError id message).2 })
    | none => (.refused, d)
  | call =>
    match call.token? with
    | some token => hand d.handles (d.pool.create token).2 (d.pool.create token).1
    | none => (.refused, d)

/-! ### What is seen through a handle -/

/-- The token of a handle: its text, its place and its error. -/
def token? (d : Desk) (h : Nat) : Option Token := d.handles[h]?.bind d.pool.get?

def error? (d : Desk) (h : Nat) : Option Diagnostic := d.handles[h]?.bind d.pool.errorOf?

def hasError (d : Desk) (h : Nat) : Bool := (d.error? h).isSome

def sameToken (d : Desk) (g h : Nat) : Bool := d.handles[g]?.isSome && d.handles[g]? = d.handles[h]?

end Desk

/-! ### Runs -/

abbrev Event := Call × Reply

/-- What happened, and the desk after it. -/
structure History where
  events : List Event
  desk : Desk

namespace History

def next (s : History) (call : Call) : History :=
  ⟨s.events ++ [(call, (s.desk.perform call).1)], (s.desk.perform call).2⟩

/-- What happens if calls are made one after the other, there being no tokens at first. -/
def of (calls : List Call) : History := calls.foldl next ⟨[], .empty⟩

end History

section
variable {es es' : List Event} {g h c : Nat} {token : Token}

/-- The handle `h` was made by cloning `g`. -/
def ClonedFrom (es : List Event) (h g : Nat) : Prop := (Call.clone g, Reply.handle h) ∈ es

/-- The handle `c` was made with its token. -/
def CreatedAs (es : List Event) (c : Nat) (token : Token) : Prop :=
  ∃ call, call.token? = some token ∧ (call, Reply.handle c) ∈ es

/-- The handle `h` descends by cloning from `c`, which was made with its token. -/
structure HasOrigin (es : List Event) (h c : Nat) (token : Token) : Prop where
  created : CreatedAs es c token
  cloned : Relation.ReflTransGen (ClonedFrom es) h c

def Made (es : List Event) (h : Nat) : Prop := ∃ call, (call, Reply.handle h) ∈ es

def SameOrigin (es : List Event) (g h : Nat) : Prop := ∃ c token, HasOrigin es g c token ∧ HasOrigin es h c token

theorem HasOrigin.mono (hsub : es ⊆ es') (ho : HasOrigin es h c token) : HasOrigin es' h c token := by
  obtain ⟨⟨call, hcall, hmem⟩, hcloned⟩ := ho
  exact ⟨⟨call, hcall, hsub hmem⟩, Relation.ReflTransGen.mono (fun _ _ hclone => hsub hclone) _ _ hcloned⟩

theorem HasOrigin.error (ho : HasOrigin es h c token) : token.error = none := by
  obtain ⟨call, hcall, -⟩ := ho.created
  cases call with
  | synthetic text =>
    cases hcall
    rfl
  | ofSpan file span =>
    obtain ⟨text, -, rfl⟩ := Option.map_eq_some_iff.mp hcall
    rfl
  | clone | addError => cases hcall

end

/-- The messages that were attached, or were to be attached, to a token through its handles. -/
def messages (handles : List TokenId) (es : List Event) (id : TokenId) : List String :=
  es.filterMap fun
    | (.addError h m, .attached _) => if handles[h]? = some id then some m else none
    | _ => none

/-- The tokens that were made, each with the handle it was made with, in order. -/
def births (es : List Event) : List (Nat × Token) :=
  es.filterMap fun
    | (call, .handle c) => call.token?.map (c, ·)
    | _ => none

/-- The handles that a call and its reply name. -/
def Event.named : Event → List Nat
  | (.clone g, .handle h) => [g, h]
  | (_, .handle h) => [h]
  | (.addError h _, .attached _) => [h]
  | _ => []

/-! ### What calls do -/

theorem getElem?_kept {α : Type} {l l' : List α} (h : l <+: l') {i : Nat} (hi : i < l.length) :
    l'[i]? = l[i]? := by
  rw [List.prefix_iff_getElem?.mp h i hi, List.getElem?_eq_getElem hi]

theorem concat_eq_split {α : Type} {l before after : List α} {a b : α} (h : l ++ [a] = before ++ b :: after) :
    (after = [] ∧ l = before ∧ a = b) ∨ ∃ later, after = later ++ [a] ∧ l = before ++ b :: later := by
  rcases List.eq_nil_or_concat' after with rfl | ⟨later, x, rfl⟩
  · obtain ⟨hl, ha⟩ := List.append_inj' h rfl
    cases ha
    exact Or.inl ⟨rfl, hl, rfl⟩
  · rw [← List.cons_append, ← List.append_assoc] at h
    obtain ⟨hl, ha⟩ := List.append_inj' h rfl
    cases ha
    exact Or.inr ⟨later, rfl, hl⟩

section
variable {es es' : List Event} {call : Call} {handles : List TokenId} {id : TokenId}

theorem Desk.perform_of_token? {token : Token} (h : call.token? = some token) (d : Desk) :
    d.perform call = hand d.handles (d.pool.create token).2 (d.pool.create token).1 := by
  cases call with
  | synthetic | ofSpan => simp [perform, h]
  | clone | addError => cases h

/-- Which of the four things a call does is up to the handles; the pool only takes part in it. -/
theorem Desk.perform_cases (handles : List TokenId) (call : Call) :
    (∃ token, call.token? = some token ∧
      ∀ pool, perform ⟨pool, handles⟩ call = hand handles (pool.create token).2 (pool.create token).1) ∨
    (∃ g id, call = .clone g ∧ handles[g]? = some id ∧ ∀ pool, perform ⟨pool, handles⟩ call = hand handles pool id) ∨
    (∃ h m id, call = .addError h m ∧ handles[h]? = some id ∧ ∀ pool,
      perform ⟨pool, handles⟩ call = (.attached (pool.addError id m).1, ⟨(pool.addError id m).2, handles⟩)) ∨
    ∀ pool, perform ⟨pool, handles⟩ call = (.refused, ⟨pool, handles⟩) := by
  cases call with
  | synthetic text => exact Or.inl ⟨_, rfl, fun _ => rfl⟩
  | ofSpan file span =>
    cases htoken : (Call.ofSpan file span).token? with
    | none => exact Or.inr (Or.inr (Or.inr fun _ => by simp [perform, htoken]))
    | some token => exact Or.inl ⟨token, rfl, fun _ => perform_of_token? htoken _⟩
  | clone g =>
    cases hg : handles[g]? with
    | none => exact Or.inr (Or.inr (Or.inr fun _ => by simp [perform, hg]))
    | some id => exact Or.inr (Or.inl ⟨g, id, rfl, hg, fun _ => by simp [perform, hg]⟩)
  | addError h m =>
    cases hh : handles[h]? with
    | none => exact Or.inr (Or.inr (Or.inr fun _ => by simp [perform, hh]))
    | some id => exact Or.inr (Or.inr (Or.inl ⟨h, m, id, rfl, hh, fun _ => by simp [perform, hh]⟩))

theorem Event.named_handle {h n : Nat} (hh : h ∈ Event.named (call, .handle n)) : h = n ∨ call = .clone h := by
  cases call with
  | clone g =>
    rcases List.mem_cons.mp hh with rfl | hh
    · exact Or.inr rfl
    · exact Or.inl (List.mem_singleton.mp hh)
  | synthetic | ofSpan | addError => exact Or.inl (List.mem_singleton.mp hh)

theorem messages_append (handles : List TokenId) (es es' : List Event) (id : TokenId) :
    messages handles (es ++ es') id = messages handles es id ++ messages handles es' id := List.filterMap_append

theorem messages_handle (handles : List TokenId) (call : Call) (h : Nat) (id : TokenId) :
    messages handles [(call, .handle h)] id = [] := by
  cases call <;> rfl

theorem messages_addError (handles : List TokenId) (h : Nat) (m : String) (b : Bool) (id : TokenId) :
    messages handles [(.addError h m, .attached b)] id = if handles[h]? = some id then [m] else [] := by
  unfold messages
  split <;> simp [*]

/-- New handles come too late for the messages of before. -/
theorem messages_of_named (h : ∀ e ∈ es, ∀ h ∈ Event.named e, h < handles.length) {handles' : List TokenId}
    (hpre : handles <+: handles') (id : TokenId) : messages handles' es id = messages handles es id := by
  refine List.filterMap_congr fun e he => ?_
  split
  · rename_i g m b
    rw [getElem?_kept hpre (h _ he g List.mem_cons_self)]
  · rfl

theorem messages_eq_nil_iff :
    messages handles es id = [] ↔ ∀ h m b, (.addError h m, .attached b) ∈ es → handles[h]? ≠ some id := by
  unfold messages
  rw [List.filterMap_eq_nil_iff]
  constructor
  · intro hnil h m b hmem hid
    simpa [hid] using hnil _ hmem
  · intro hnot e he
    split
    · rename_i h m b
      exact if_neg (hnot h m b he)
    · rfl

theorem births_append (es es' : List Event) : births (es ++ es') = births es ++ births es' := List.filterMap_append

theorem mem_births {c : Nat} {token : Token} : (c, token) ∈ births es ↔ CreatedAs es c token := by
  unfold births
  rw [List.mem_filterMap]
  constructor
  · rintro ⟨e, he, hbirth⟩
    split at hbirth
    · rename_i call c'
      obtain ⟨token', htoken, heq⟩ := Option.map_eq_some_iff.mp hbirth
      cases heq
      exact ⟨call, htoken, he⟩
    · cases hbirth
  · rintro ⟨call, htoken, hmem⟩
    exact ⟨_, hmem, by simp [htoken]⟩

end

/-! ### What a history keeps -/

/-- The desk shows what happened. Tokens have the numbers of their births and are noted with what was attached to them;
    a clone is on the token of its original; and an error was attached just if none was to be attached before. -/
structure Shows (es : List Event) (d : Desk) : Prop where
  named : ∀ e ∈ es, ∀ h ∈ Event.named e, h < d.handles.length
  size : d.pool.tokens.size = (births es).length
  births : ∀ (k c : Nat) (token : Token), (births es)[k]? = some (c, token) →
    d.handles[c]? = some k ∧ d.pool.get? k = some (token.noted (messages d.handles es k))
  cloned : ∀ h g, ClonedFrom es h g → d.handles[h]? = d.handles[g]?
  origin : ∀ h < d.handles.length, ∃ c token, HasOrigin es h c token
  replies : ∀ before h m b after, es = before ++ (.addError h m, .attached b) :: after →
    ∀ id, d.handles[h]? = some id → (b = true ↔ messages d.handles before id = [])

namespace Shows
variable {es : List Event} {d : Desk}

theorem empty : Shows [] .empty where
  named := nofun
  size := rfl
  births := nofun
  cloned := nofun
  origin := nofun
  replies := fun before h m b after hes => absurd hes.symm (by simp)

theorem attempted (hs : Shows es d) {before after : List Event} {h : Nat} {m : String} {b : Bool}
    (hes : es = before ++ (.addError h m, .attached b) :: after) : h < d.handles.length :=
  hs.named (.addError h m, .attached b) (by simp [hes]) h (by simp [Event.named])

/-- A handle is on the token it descends from. -/
theorem of_origin (hs : Shows es d) {h c : Nat} {token : Token} (ho : HasOrigin es h c token) :
    ∃ k : Nat, (Backend.births es)[k]? = some (c, token) ∧ d.handles[c]? = some k ∧ d.handles[h]? = some k ∧
      d.pool.get? k = some (token.noted (messages d.handles es k)) := by
  -- Each clone is on the token of the handle before it, down to the one that was made with it.
  have hchain : ∀ c, Relation.ReflTransGen (ClonedFrom es) h c → d.handles[h]? = d.handles[c]? := by
    intro c hcloned
    induction hcloned with
    | refl => rfl
    | tail _ hclone ih => rw [ih, hs.cloned _ _ hclone]
  obtain ⟨k, hk⟩ := List.mem_iff_getElem?.mp (mem_births.mpr ho.created)
  obtain ⟨hc, hget⟩ := hs.births k c token hk
  exact ⟨k, hk, hc, (hchain c ho.cloned).trans hc, hget⟩

theorem known (hs : Shows es d) {h : Nat} {id : TokenId} (hid : d.handles[h]? = some id) :
    id < d.pool.tokens.size := by
  obtain ⟨c, token, horigin⟩ := hs.origin h (List.getElem?_eq_some_iff.mp hid).1
  obtain ⟨k, hk, -, hh, -⟩ := hs.of_origin horigin
  cases hid.symm.trans hh
  rw [hs.size]
  exact (List.getElem?_eq_some_iff.mp hk).1

theorem messages_unborn (hs : Shows es d) {id : TokenId} (h : d.pool.tokens.size ≤ id) :
    messages d.handles es id = [] :=
  messages_eq_nil_iff.mpr fun _ _ _ _ hid => absurd (hs.known hid) (Nat.not_lt.mpr h)

section
variable {e : Event} {pool : TokenPool} {handles : List TokenId}

theorem births_concat (hs : Shows es d) (hpre : d.handles <+: handles)
    (hpool : ∀ k token, d.pool.get? k = some token → pool.get? k = some (token.noted (messages handles [e] k)))
    (hborn : ∀ c token, CreatedAs [e] c token →
      handles[c]? = some d.pool.tokens.size ∧ pool.get? d.pool.tokens.size = some token)
    {k c : Nat} {token : Token} (hk : (Backend.births (es ++ [e]))[k]? = some (c, token)) :
    handles[c]? = some k ∧ pool.get? k = some (token.noted (messages handles (es ++ [e]) k)) := by
  rw [births_append] at hk
  rw [messages_append, messages_of_named hs.named hpre]
  rcases Nat.lt_or_ge k (Backend.births es).length with hlt | hge
  · rw [List.getElem?_append_left hlt] at hk
    obtain ⟨hc, hget⟩ := hs.births k c token hk
    refine ⟨(getElem?_kept hpre (List.getElem?_eq_some_iff.mp hc).1).trans hc, ?_⟩
    rw [← Token.noted_noted]
    exact hpool k _ hget
  · -- The event makes one token at most, so this is the next of all, and nothing is said of it.
    rw [List.getElem?_append_right hge] at hk
    have hone : (Backend.births [e]).length ≤ 1 := List.length_filterMap_le _ _
    have hlt := (List.getElem?_eq_some_iff.mp hk).1
    obtain rfl : k = d.pool.tokens.size := by
      rw [hs.size]
      omega
    have hcreated : CreatedAs [e] c token := mem_births.mp (List.mem_of_getElem? hk)
    obtain ⟨call, -, hcall⟩ := id hcreated
    cases List.mem_singleton.mp hcall
    rw [hs.messages_unborn (Nat.le_refl _), messages_handle, List.nil_append, Token.noted_nil]
    exact hborn c token hcreated

/-- What one more event must be for the desk to go on showing what happened. -/
theorem concat (hs : Shows es d) (hpre : d.handles <+: handles) (hnamed : ∀ h ∈ Event.named e, h < handles.length)
    (hsize : pool.tokens.size = d.pool.tokens.size + (Backend.births [e]).length)
    (hpool : ∀ k token, d.pool.get? k = some token → pool.get? k = some (token.noted (messages handles [e] k)))
    (hborn : ∀ c token, CreatedAs [e] c token →
      handles[c]? = some d.pool.tokens.size ∧ pool.get? d.pool.tokens.size = some token)
    (hcloned : ∀ h g, ClonedFrom [e] h g → handles[h]? = handles[g]?)
    (horigin : ∀ h < handles.length, d.handles.length ≤ h → ∃ c token, HasOrigin (es ++ [e]) h c token)
    (hreply : ∀ h m b, e = (.addError h m, .attached b) → ∀ id, handles[h]? = some id →
      (b = true ↔ messages handles es id = [])) :
    Shows (es ++ [e]) ⟨pool, handles⟩ := by
  refine ⟨fun e' he' h hh => ?_, ?_, fun k c token hk => hs.births_concat hpre hpool hborn hk, fun h g hclone => ?_,
    fun h hlt => ?_, fun before h m b after hsplit id hid => ?_⟩
  · rcases List.mem_append.mp he' with he' | he'
    · exact Nat.lt_of_lt_of_le (hs.named e' he' h hh) hpre.length_le
    · cases List.mem_singleton.mp he'
      exact hnamed h hh
  · rw [births_append, List.length_append, ← hs.size]
    exact hsize
  · rcases List.mem_append.mp hclone with hclone | hclone
    · have hh := hs.named _ hclone h (by simp [Event.named])
      have hg := hs.named _ hclone g (by simp [Event.named])
      exact (getElem?_kept hpre hh).trans ((hs.cloned h g hclone).trans (getElem?_kept hpre hg).symm)
    · exact hcloned h g hclone
  · rcases Nat.lt_or_ge h d.handles.length with hlt' | hge
    · obtain ⟨c, token, ho⟩ := hs.origin h hlt'
      exact ⟨c, token, ho.mono (List.subset_append_left _ _)⟩
    · exact horigin h hlt hge
  · rcases concat_eq_split hsplit with ⟨rfl, rfl, he⟩ | ⟨later, rfl, hes⟩
    · exact hreply h m b he id hid
    · -- New handles do not change what was said before.
      have hbefore : ∀ e ∈ before, ∀ h ∈ Event.named e, h < d.handles.length := fun e he =>
        hs.named e (by simp [hes, he])
      rw [messages_of_named hbefore hpre]
      exact hs.replies before h m b later hes id ((getElem?_kept hpre (hs.attempted hes)).symm.trans hid)

theorem concat_hand (hs : Shows es d) {call : Call} {id : TokenId}
    (hcloned : ∀ g, call = .clone g → d.handles[g]? = some id)
    (hsize : pool.tokens.size = d.pool.tokens.size + (Backend.births [(call, .handle d.handles.length)]).length)
    (hpool : ∀ k token, d.pool.get? k = some token → pool.get? k = some token)
    (hborn : ∀ token, call.token? = some token → id = d.pool.tokens.size ∧ pool.get? d.pool.tokens.size = some token)
    (horigin : ∃ c token, HasOrigin (es ++ [(call, .handle d.handles.length)]) d.handles.length c token) :
    Shows (es ++ [(call, .handle d.handles.length)]) ⟨pool, d.handles ++ [id]⟩ := by
  have hnew : (d.handles ++ [id])[d.handles.length]? = some id := List.getElem?_concat_length
  have hlast : ∀ {h}, h < (d.handles ++ [id]).length → d.handles.length ≤ h → h = d.handles.length := by
    intro h hlt hge
    rw [List.length_append, List.length_singleton] at hlt
    omega
  apply hs.concat (List.prefix_append _ _)
  · intro h hh
    rw [List.length_append, List.length_singleton]
    rcases Event.named_handle hh with rfl | hclone
    · omega
    · have := (List.getElem?_eq_some_iff.mp (hcloned h hclone)).1
      omega
  · exact hsize
  · intro k t ht
    rw [messages_handle, Token.noted_nil, hpool k t ht]
  · rintro c t ⟨call', ht, hmem⟩
    cases List.mem_singleton.mp hmem
    obtain ⟨rfl, hget⟩ := hborn t ht
    exact ⟨hnew, hget⟩
  · intro h g hclone
    cases List.mem_singleton.mp hclone
    have hg := hcloned g rfl
    rw [hnew, List.getElem?_append_left (List.getElem?_eq_some_iff.mp hg).1, hg]
  · intro h hlt hge
    rw [hlast hlt hge]
    exact horigin
  · nofun

theorem concat_same (hs : Shows es d) (hno : ∀ h, e.2 ≠ .handle h)
    (hnamed : ∀ h ∈ Event.named e, h < d.handles.length) (hsize : pool.tokens.size = d.pool.tokens.size)
    (hpool : ∀ k token, d.pool.get? k = some token → pool.get? k = some (token.noted (messages d.handles [e] k)))
    (hreply : ∀ h m b, e = (.addError h m, .attached b) → ∀ id, d.handles[h]? = some id →
      (b = true ↔ messages d.handles es id = [])) :
    Shows (es ++ [e]) ⟨pool, d.handles⟩ := by
  have hcall : ∀ call h, (call, .handle h) ∉ [e] := by
    intro call h hmem
    cases List.mem_singleton.mp hmem
    exact hno h rfl
  have hbirths : Backend.births [e] = [] := by
    refine List.eq_nil_iff_forall_not_mem.mpr fun birth hbirth => ?_
    obtain ⟨call, -, hmem⟩ := mem_births.mp hbirth
    exact hcall _ _ hmem
  apply hs.concat List.prefix_rfl hnamed
  · rw [hbirths, hsize]
    rfl
  · exact hpool
  · rintro c token ⟨call, -, hmem⟩
    exact absurd hmem (hcall _ _)
  · exact fun h g hclone => absurd hclone (hcall _ _)
  · exact fun h hlt hge => absurd hlt (Nat.not_lt.mpr hge)
  · exact hreply

end

theorem create (hs : Shows es d) {call : Call} {token : Token} (htoken : call.token? = some token) :
    Shows (es ++ [(call, .handle d.handles.length)])
      ⟨(d.pool.create token).2, d.handles ++ [(d.pool.create token).1]⟩ := by
  apply hs.concat_hand
  · rintro g rfl
    cases htoken
  · simp [Backend.births, htoken, TokenPool.create]
  · exact fun k t ht => TokenPool.get?_create_of_some ht token
  · intro t ht
    cases htoken.symm.trans ht
    exact ⟨rfl, by rw [TokenPool.get?_create, if_pos rfl]⟩
  · exact ⟨_, token, ⟨call, htoken, by simp⟩, .refl⟩

theorem clone (hs : Shows es d) {g : Nat} {id : TokenId} (hg : d.handles[g]? = some id) :
    Shows (es ++ [(.clone g, .handle d.handles.length)]) ⟨d.pool, d.handles ++ [id]⟩ := by
  apply hs.concat_hand
  · intro g' heq
    cases heq
    exact hg
  · rfl
  · exact fun k t ht => ht
  · nofun
  · -- The new handle descends from where its original does.
    obtain ⟨c, token, ho⟩ := hs.origin g (List.getElem?_eq_some_iff.mp hg).1
    have ho' := ho.mono (List.subset_append_left es [(.clone g, .handle d.handles.length)])
    exact ⟨c, token, ho'.created, .head (by simp [ClonedFrom]) ho'.cloned⟩

theorem addError (hs : Shows es d) {h : Nat} {m : String} {id : TokenId} (hh : d.handles[h]? = some id) :
    Shows (es ++ [(.addError h m, .attached (d.pool.addError id m).1)]) ⟨(d.pool.addError id m).2, d.handles⟩ := by
  apply hs.concat_same
  · nofun
  · intro g hg
    cases List.mem_singleton.mp hg
    exact (List.getElem?_eq_some_iff.mp hh).1
  · exact d.pool.size_addError id m
  · intro k t ht
    rw [TokenPool.get?_addError, ht, messages_addError, hh]
    simp
  · intro h' m' b heq id' hid
    cases heq
    cases hh.symm.trans hid
    obtain ⟨c, token, ho⟩ := hs.origin h (List.getElem?_eq_some_iff.mp hh).1
    obtain ⟨k, -, -, hk, hget⟩ := hs.of_origin ho
    cases hh.symm.trans hk
    rw [TokenPool.fst_addError, hget, Option.any_some, Token.error_noted ho.error]
    simp

theorem refuse (hs : Shows es d) (call : Call) : Shows (es ++ [(call, .refused)]) d := by
  apply hs.concat_same
  · nofun
  · intro h hh
    cases call <;> cases hh
  · rfl
  · intro k t ht
    have hnone : messages d.handles [(call, .refused)] k = [] := by cases call <;> rfl
    rw [hnone, Token.noted_nil, ht]
  · nofun

theorem perform (hs : Shows es d) (call : Call) : Shows (es ++ [(call, (d.perform call).1)]) (d.perform call).2 := by
  rcases Desk.perform_cases d.handles call with
    ⟨token, htoken, h⟩ | ⟨g, id, rfl, hg, h⟩ | ⟨h', m, id, rfl, hh, h⟩ | h <;> rw [h d.pool]
  · exact hs.create htoken
  · exact hs.clone hg
  · exact hs.addError hh
  · exact hs.refuse call

end Shows

theorem History.shows (calls : List Call) : Shows (of calls).events (of calls).desk :=
  List.foldlRecOn (motive := fun s : History => Shows s.events s.desk) calls next Shows.empty
    fun _ hs call _ => hs.perform call

end Backend
