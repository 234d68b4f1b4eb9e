import Backend.Proofs.Source.Handles

/-! The first error of a token. The handles that descend from one creation share a token: the first error attached
    through any of them is seen through all of them and stays, and nothing of it is seen through others. -/

namespace Backend

namespace Shows
variable {es : List Event} {d : Desk} {g h c : Nat} {token : Token} {m : String}

theorem sameOrigin_iff (hs : Shows es d) :
    SameOrigin es g h ↔ ∃ id, d.handles[g]? = some id ∧ d.handles[h]? = some id := by
  constructor
  · rintro ⟨c, token, hg, hh⟩
    obtain ⟨k, -, hk, hgk, -⟩ := hs.of_origin hg
    obtain ⟨k', -, hk', hhk', -⟩ := hs.of_origin hh
    cases hk.symm.trans hk'
    exact ⟨k, hgk, hhk'⟩
  · rintro ⟨id, hg, hh⟩
    obtain ⟨c, token, hog⟩ := hs.origin g (List.getElem?_eq_some_iff.mp hg).1
    obtain ⟨c', token', hoh⟩ := hs.origin h (List.getElem?_eq_some_iff.mp hh).1
    obtain ⟨k, hk, -, hgk, -⟩ := hs.of_origin hog
    obtain ⟨k', hk', -, hhk', -⟩ := hs.of_origin hoh
    cases hg.symm.trans hgk
    cases hh.symm.trans hhk'
    cases hk.symm.trans hk'
    exact ⟨c, token, hog, hoh⟩

theorem sameToken_iff (hs : Shows es d) : d.sameToken g h = true ↔ SameOrigin es g h := by
  rw [hs.sameOrigin_iff]
  unfold Desk.sameToken
  cases d.handles[g]? <;> simp [eq_comm]

theorem made_iff (hs : Shows es d) : Made es h ↔ h < d.handles.length := by
  constructor
  · rintro ⟨call, hmem⟩
    exact hs.named _ hmem h (by cases call <;> simp [Event.named])
  · intro hlt
    obtain ⟨c, token, ⟨call, -, hmem⟩, hcloned⟩ := hs.origin h hlt
    rcases hcloned.cases_head with rfl | ⟨g, hclone, -⟩
    · exact ⟨call, hmem⟩
    · exact ⟨_, hclone⟩

theorem no_messages_iff (hs : Shows es d) {es' : List Event} {id : TokenId} (hh : d.handles[h]? = some id) :
    messages d.handles es' id = [] ↔ ∀ g m b, (.addError g m, .attached b) ∈ es' → ¬SameOrigin es g h := by
  rw [messages_eq_nil_iff]
  refine forall₄_congr fun g m b _ => ?_
  rw [hs.sameOrigin_iff, hh]
  simp

/-- The message that was attached is the first of all. -/
theorem head?_messages (hs : Shows es d) (hmem : (.addError h m, .attached true) ∈ es) {id : TokenId}
    (hh : d.handles[h]? = some id) : (messages d.handles es id).head? = some m := by
  obtain ⟨before, after, hes⟩ := List.append_of_mem hmem
  have hbefore : messages d.handles before id = [] := (hs.replies before h m true after hes id hh).mp rfl
  rw [hes, ← List.singleton_append, messages_append, messages_append, hbefore, messages_addError, if_pos hh]
  rfl

theorem error?_of_origin (hs : Shows es d) (ho : HasOrigin es h c token) :
    ∃ id, d.handles[h]? = some id ∧ d.error? h = (messages d.handles es id).head?.map token.errorOf := by
  obtain ⟨k, -, -, hk, hget⟩ := hs.of_origin ho
  refine ⟨k, hk, ?_⟩
  rw [Desk.error?, hk, Option.bind_some, TokenPool.errorOf?, hget, Option.bind_some, Token.error_noted ho.error]

end Shows

/-! ### An error that is left out -/

/-- The desks have the same handles, on tokens that are the same but for one. -/
structure Desk.AgreeBut (id : TokenId) (d d' : Desk) : Prop where
  handles : d'.handles = d.handles
  size : d'.pool.tokens.size = d.pool.tokens.size
  tokens : ∀ k ≠ id, d'.pool.get? k = d.pool.get? k

namespace Desk.AgreeBut
variable {id : TokenId} {d d' : Desk} {g : Nat} {call : Call}

theorem refl (id : TokenId) (d : Desk) : AgreeBut id d d := ⟨rfl, rfl, fun _ _ => rfl⟩

theorem addError (id : TokenId) (d : Desk) (m : String) : AgreeBut id d ⟨(d.pool.addError id m).2, d.handles⟩ where
  handles := rfl
  size := d.pool.size_addError id m
  tokens := fun k hk => by simp [TokenPool.get?_addError, hk.symm, Token.noted_nil]

/-- A call keeps the difference where it is. -/
theorem perform (h : AgreeBut id d d') (call : Call) : AgreeBut id (d.perform call).2 (d'.perform call).2 := by
  obtain ⟨pool, _⟩ := d
  obtain ⟨pool', handles⟩ := d'
  obtain ⟨rfl, hsize, htokens⟩ := h
  rcases perform_cases handles call with
    ⟨token, -, h⟩ | ⟨g, id', -, -, h⟩ | ⟨g, m, id', -, -, h⟩ | h <;> rw [h pool, h pool']
  · exact ⟨by simp [hand, TokenPool.create, hsize], by simp [hand, TokenPool.create, hsize],
      fun k hk => by simp [hand, TokenPool.get?_create, hsize, htokens k hk]⟩
  · exact ⟨rfl, hsize, htokens⟩
  · exact ⟨rfl, by simp [TokenPool.size_addError, hsize], fun k hk => by simp [TokenPool.get?_addError, htokens k hk]⟩
  · exact ⟨rfl, hsize, htokens⟩

/-- Only a call about the one token can be answered in two ways. -/
theorem reply (h : AgreeBut id d d') (hcall : ∀ g m, call = .addError g m → d.handles[g]? ≠ some id) :
    (d'.perform call).1 = (d.perform call).1 := by
  obtain ⟨pool, _⟩ := d
  obtain ⟨pool', handles⟩ := d'
  obtain ⟨rfl, hsize, htokens⟩ := h
  rcases perform_cases handles call with
    ⟨token, -, h⟩ | ⟨g, id', -, -, h⟩ | ⟨g, m, id', rfl, hg, h⟩ | h <;> rw [h pool, h pool']
  · rfl
  · rfl
  · have hid : id' ≠ id := fun heq => hcall g m rfl (heq ▸ hg)
    rw [TokenPool.fst_addError, TokenPool.fst_addError, htokens id' hid]

theorem token? (h : AgreeBut id d d') (hg : d.handles[g]? ≠ some id) : d'.token? g = d.token? g := by
  unfold Desk.token?
  rw [h.handles]
  cases hk : d.handles[g]? with
  | none => rfl
  | some k => exact h.tokens k fun heq => hg (heq ▸ hk)

theorem sameToken (h : AgreeBut id d d') (g g' : Nat) : d'.sameToken g g' = d.sameToken g g' := by
  unfold Desk.sameToken
  rw [h.handles]

end Desk.AgreeBut

theorem Desk.error?_eq (d : Desk) (h : Nat) : d.error? h = (d.token? h).bind (·.error) := by
  unfold error? Desk.token?
  cases d.handles[h]? <;> rfl

theorem Desk.handles_perform (d : Desk) (call : Call) : d.handles <+: (d.perform call).2.handles := by
  rcases perform_cases d.handles call with ⟨_, -, h⟩ | ⟨_, _, -, -, h⟩ | ⟨_, _, _, -, -, h⟩ | h <;> rewrite [h d.pool]
  · exact List.prefix_append _ _
  · exact List.prefix_append _ _
  · exact List.prefix_rfl
  · exact List.prefix_rfl

/-- A call leaves the token of a handle as it is, or with one more message. -/
theorem Desk.token?_perform {d : Desk} {h : Nat} {token : Token} (ht : d.token? h = some token) (call : Call) :
    ∃ messages, (d.perform call).2.token? h = some (token.noted messages) := by
  obtain ⟨id, hid, hget⟩ := Option.bind_eq_some_iff.mp ht
  have hlt := (List.getElem?_eq_some_iff.mp hid).1
  rcases perform_cases d.handles call with ⟨token', -, hp⟩ | ⟨g, id', -, -, hp⟩ | ⟨g, m, id', -, -, hp⟩ | hp <;>
    rw [hp d.pool]
  · refine ⟨[], ?_⟩
    simp [hand, Desk.token?, List.getElem?_append_left hlt, hid, TokenPool.get?_create_of_some hget, Token.noted_nil]
  · refine ⟨[], ?_⟩
    simp [hand, Desk.token?, List.getElem?_append_left hlt, hid, hget, Token.noted_nil]
  · exact ⟨_, by rw [Desk.token?, hid, Option.bind_some, TokenPool.get?_addError, hget, Option.map_some]⟩
  · exact ⟨[], by rw [Token.noted_nil]; exact ht⟩

theorem Desk.error?_perform {d : Desk} {h : Nat} {e : Diagnostic} (he : d.error? h = some e) (call : Call) :
    (d.perform call).2.error? h = some e := by
  rw [error?_eq] at he ⊢
  obtain ⟨token, ht, herror⟩ := Option.bind_eq_some_iff.mp he
  obtain ⟨messages, hnoted⟩ := token?_perform ht call
  rw [hnoted, Token.noted_of_error herror, Option.bind_some, herror]

namespace History
variable {s s' : History} {id : TokenId}

theorem of_append (calls later : List Call) : of (calls ++ later) = later.foldl next (of calls) := List.foldl_append

theorem foldl_error? {h : Nat} {e : Diagnostic} (later : List Call) (he : s.desk.error? h = some e) :
    (later.foldl next s).desk.error? h = some e := by
  induction later generalizing s with
  | nil => exact he
  | cons call later ih => exact ih (Desk.error?_perform he call)

theorem foldl_handles (later : List Call) (s : History) : s.desk.handles <+: (later.foldl next s).desk.handles := by
  induction later generalizing s with
  | nil => exact List.prefix_rfl
  | cons call later ih => exact (s.desk.handles_perform call).trans (ih (s.next call))

theorem foldl_agreeBut (later : List Call) (h : Desk.AgreeBut id s.desk s'.desk) :
    Desk.AgreeBut id (later.foldl next s).desk (later.foldl next s').desk := by
  induction later generalizing s s' with
  | nil => exact h
  | cons call later ih => exact ih (h.perform call)

/-- Had an error not been attached, there would be a difference in its own token only. -/
theorem agreeBut (calls later : List Call) (h : Nat) (m : String) :
    ∃ id, Desk.AgreeBut id (of (calls ++ later)).desk (of (calls ++ .addError h m :: later)).desk ∧
      ∀ g, (of (calls ++ later)).desk.handles[g]? = some id → SameOrigin (of (calls ++ later)).events g h := by
  have hs := shows (calls ++ later)
  cases hh : (of calls).desk.handles[h]? with
  | none =>
    -- The call was refused, so all tokens are the same: take one that is not made yet.
    refine ⟨(of (calls ++ later)).desk.pool.tokens.size, ?_, fun g hg => absurd (hs.known hg) (Nat.lt_irrefl _)⟩
    have hnext : (next (of calls) (.addError h m)).desk = (of calls).desk := by simp [next, Desk.perform, hh]
    rw [of_append, of_append]
    exact foldl_agreeBut later (hnext ▸ .refl _ _)
  | some id =>
    have hkept : (of (calls ++ later)).desk.handles[h]? = some id := by
      rw [of_append]
      rw [getElem?_kept (foldl_handles later (of calls)) (List.getElem?_eq_some_iff.mp hh).1, hh]
    refine ⟨id, ?_, fun g hg => hs.sameOrigin_iff.mpr ⟨id, hg, hkept⟩⟩
    have hnext : (next (of calls) (.addError h m)).desk =
        ⟨((of calls).desk.pool.addError id m).2, (of calls).desk.handles⟩ := by simp [next, Desk.perform, hh]
    rw [of_append, of_append]
    exact foldl_agreeBut later (hnext ▸ .addError id _ m)

end History

/-! ### What clients can rely on -/

/-- New handles are made of tokens and of handles, and errors can be attached through all of them. -/
structure Serves (es : List Event) (d : Desk) : Prop where
  makes : ∀ call, (∃ token, call.token? = some token) ∨ (∃ g, call = .clone g ∧ Made es g) →
    ∃ h, (d.perform call).1 = .handle h ∧ ¬Made es h
  attaches : ∀ h m, Made es h → ∃ b, (d.perform (.addError h m)).1 = .attached b
  descends : ∀ h, Made es h → ∃ c token, HasOrigin es h c token

/-- Handles are on one token just if they descend from one creation. Of all errors for one token the first is attached
    and no other; all handles on the token have it, and before it none had one. -/
structure KeepsFirst (es : List Event) (d : Desk) : Prop where
  sameToken : ∀ g h, d.sameToken g h = true ↔ SameOrigin es g h
  attached : ∀ before h m b after, es = before ++ (.addError h m, .attached b) :: after →
    (b = true ↔ ∀ g m' b', (.addError g m', .attached b') ∈ before → ¬SameOrigin es g h)
  seen : ∀ h m, (.addError h m, .attached true) ∈ es → ∀ g c token, SameOrigin es g h → HasOrigin es g c token →
    d.hasError g = true ∧ d.error? g = some ⟨.error, token.location, m⟩
  unseen : ∀ h, (∀ g m b, (.addError g m, .attached b) ∈ es → ¬SameOrigin es g h) → d.hasError h = false

/-- Nothing can be told from two desks through handles that do not descend from where `h` does. -/
structure SeenAlike (es : List Event) (h : Nat) (d d' : Desk) : Prop where
  token : ∀ g, ¬SameOrigin es g h → d'.token? g = d.token? g
  error : ∀ g, ¬SameOrigin es g h → d'.error? g = d.error? g ∧ d'.hasError g = d.hasError g
  sameToken : ∀ g g', d'.sameToken g g' = d.sameToken g g'
  reply : ∀ call, (∀ g m, call = .addError g m → ¬SameOrigin es g h) → (d'.perform call).1 = (d.perform call).1

section
variable {es : List Event} {d d' : Desk} {id : TokenId} {h : Nat}

theorem Shows.serves (hs : Shows es d) : Serves es d where
  makes := by
    have hfresh : ¬Made es d.handles.length := fun hmade => Nat.lt_irrefl _ (hs.made_iff.mp hmade)
    rintro call (⟨token, htoken⟩ | ⟨g, rfl, hg⟩)
    · exact ⟨_, congrArg Prod.fst (Desk.perform_of_token? htoken d), hfresh⟩
    · have hg := List.getElem?_eq_getElem (hs.made_iff.mp hg)
      exact ⟨_, by simp [Desk.perform, hg, Desk.hand], hfresh⟩
  attaches := fun h m hmade => by
    simp [Desk.perform, List.getElem?_eq_getElem (hs.made_iff.mp hmade)]
  descends := fun h hmade => hs.origin h (hs.made_iff.mp hmade)

theorem Shows.keepsFirst (hs : Shows es d) : KeepsFirst es d where
  sameToken := fun g h => hs.sameToken_iff
  attached := fun before h m b after hes => by
    have hid := List.getElem?_eq_getElem (hs.attempted hes)
    rw [hs.replies before h m b after hes _ hid, hs.no_messages_iff hid]
  seen := fun h m hmem g c token hsame ho => by
    obtain ⟨id, hg, hh⟩ := hs.sameOrigin_iff.mp hsame
    obtain ⟨id', hid', herror⟩ := hs.error?_of_origin ho
    cases hg.symm.trans hid'
    rw [hs.head?_messages hmem hh] at herror
    exact ⟨by rw [Desk.hasError, herror]; rfl, herror⟩
  unseen := fun h hnone => by
    cases hid : d.handles[h]? with
    | none => simp [Desk.hasError, Desk.error?, hid]
    | some id =>
      obtain ⟨c, token, ho⟩ := hs.origin h (List.getElem?_eq_some_iff.mp hid).1
      obtain ⟨id', hid', herror⟩ := hs.error?_of_origin ho
      cases hid.symm.trans hid'
      rw [Desk.hasError, herror, (hs.no_messages_iff hid).mpr hnone]
      rfl

theorem Desk.AgreeBut.seenAlike (ha : AgreeBut id d d') (hid : ∀ g, d.handles[g]? = some id → SameOrigin es g h) :
    SeenAlike es h d d' := by
  have htoken : ∀ g, ¬SameOrigin es g h → d'.token? g = d.token? g := fun g hg => ha.token? fun hgid => hg (hid g hgid)
  have herror : ∀ g, ¬SameOrigin es g h → d'.error? g = d.error? g := fun g hg => by
    rw [error?_eq, error?_eq, htoken g hg]
  exact ⟨htoken, fun g hg => ⟨herror g hg, by rw [hasError, hasError, herror g hg]⟩, ha.sameToken,
    fun call hcall => ha.reply fun g m heq hgid => hcall g m heq (hid g hgid)⟩

end

/-- The first error wins, whoever attaches it and through whichever handle. Whatever calls are made, handles are on one
    token just if they descend from one creation by cloning; of all errors for a token the first is attached and the
    others are not; all handles on the token, those that are made later as well, then have that error, at the place of
    the token, and it stays. Through handles on other tokens all is seen, then and later, as if it had not been
    attached. -/
theorem History.first_error_wins (calls : List Call) :
    Serves (of calls).events (of calls).desk ∧ KeepsFirst (of calls).events (of calls).desk ∧
      (∀ later h e, (of calls).desk.error? h = some e → (of (calls ++ later)).desk.error? h = some e) ∧
      ∀ later h m, SeenAlike (of (calls ++ later)).events h
        (of (calls ++ later)).desk (of (calls ++ .addError h m :: later)).desk := by
  refine ⟨(shows calls).serves, (shows calls).keepsFirst, fun later h e he => ?_, fun later h m => ?_⟩
  · rw [of_append]
    exact foldl_error? later he
  · obtain ⟨id, hagree, hid⟩ := agreeBut calls later h m
    exact hagree.seenAlike hid

-- An error attached through a clone, and one that comes too late.
example :
    let s := History.of [.synthetic "a", .clone 0, .synthetic "b", .addError 1 "x", .addError 0 "y", .clone 0]
    [0, 1, 2, 3].map s.desk.error? =
      [some ⟨.error, none, "x"⟩, some ⟨.error, none, "x"⟩, none, some ⟨.error, none, "x"⟩] := rfl

end Backend
