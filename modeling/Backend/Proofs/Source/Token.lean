import Backend.Source.Token

/-! Messages about a token. Of all that come in the first stays, unless the token was faulty before; the text
    and the place of the token never change. -/

namespace Backend

namespace Token

/-- The token after some messages about it came in. -/
def noted (t : Token) (messages : List String) : Token :=
  { t with error := t.error.or (messages.head?.map t.errorOf) }

theorem noted_nil (t : Token) : t.noted [] = t := by
  simp [noted]

theorem noted_of_error {t : Token} {d : Diagnostic} (h : t.error = some d) (messages : List String) :
    t.noted messages = t := by
  cases t
  cases h
  rfl

theorem error_noted {t : Token} (h : t.error = none) (messages : List String) :
    (t.noted messages).error = messages.head?.map t.errorOf := by
  simp [noted, h]

theorem noted_noted (t : Token) (l r : List String) : (t.noted l).noted r = t.noted (l ++ r) := by
  cases l with
  | nil => rw [noted_nil, List.nil_append]
  | cons m l =>
    -- After a message the token is faulty, with the one it had or with this one.
    have h : ∃ d, (t.noted (m :: l)).error = some d := by
      cases hd : t.error with
      | none => exact ⟨t.errorOf m, by simp [noted, hd]⟩
      | some d => exact ⟨d, by simp [noted, hd]⟩
    obtain ⟨d, hd⟩ := h
    rw [noted_of_error hd]
    rfl

theorem noted_again (t : Token) (messages : List String) : (t.noted messages).noted messages = t.noted messages := by
  rw [noted_noted]
  cases messages <;> rfl

end Token

namespace TokenPool

theorem ext_get? {pool pool' : TokenPool} (h : ∀ id, pool.get? id = pool'.get? id) : pool = pool' := by
  cases pool
  cases pool'
  exact congrArg mk (Array.ext_getElem? h)

theorem get?_create (pool : TokenPool) (token : Token) (i : TokenId) :
    (pool.create token).2.get? i = if i = pool.tokens.size then some token else pool.get? i := Array.getElem?_push

theorem get?_create_of_some {pool : TokenPool} {i : TokenId} {t : Token} (h : pool.get? i = some t) (token : Token) :
    (pool.create token).2.get? i = some t := by
  rw [get?_create, if_neg (Nat.ne_of_lt (Array.getElem?_eq_some_iff.mp h).1), h]

theorem size_addError (pool : TokenPool) (id : TokenId) (message : String) :
    (pool.addError id message).2.tokens.size = pool.tokens.size := by
  unfold addError
  split
  · rfl
  · split
    · rfl
    · exact Array.size_setIfInBounds

/-- A message is kept if there is a token without an error. -/
theorem fst_addError (pool : TokenPool) (id : TokenId) (message : String) :
    (pool.addError id message).1 = (pool.get? id).any (·.error.isNone) := by
  unfold addError
  cases pool.get? id with
  | none => rfl
  | some token => cases herror : token.error <;> simp [herror]

/-- A message changes the token it is about and no other. -/
theorem get?_addError (pool : TokenPool) (id : TokenId) (message : String) (i : TokenId) :
    (pool.addError id message).2.get? i =
      (pool.get? i).map fun t => t.noted (if id = i then [message] else []) := by
  unfold addError
  split
  · rename_i hnone
    by_cases h : id = i
    · subst h
      simp [hnone]
    · simp [h, Token.noted_nil]
  · rename_i token htoken
    split
    · rename_i herror
      obtain ⟨d, hd⟩ := Option.isSome_iff_exists.mp herror
      by_cases h : id = i
      · subst h
        simp [htoken, Token.noted_of_error hd]
      · simp [h, Token.noted_nil]
    · rename_i herror
      have hd : token.error = none := by simpa using herror
      show (pool.tokens.setIfInBounds id _)[i]? = _
      rw [Array.getElem?_setIfInBounds]
      by_cases h : id = i
      · subst h
        have hlt : id < pool.tokens.size := (Array.getElem?_eq_some_iff.mp htoken).1
        rw [if_pos rfl, if_pos hlt, htoken, if_pos rfl]
        simp [Token.noted, hd]
      · rw [if_neg h, if_neg h]
        simp [get?, Token.noted_nil]

end TokenPool
end Backend
