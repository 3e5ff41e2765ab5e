import Latchkey.Proofs.Transcript

/-!
# What is told of credentials

Signing up gives an account its first password, asking for a reset gives it a token, and a reset
takes a token and sets a password. From the answers to such requests, and from nothing else, it is
known which password is an account's and which tokens are good for a reset.
-/

namespace Latchkey

/-- What an answer tells of the credentials of an account. -/
inductive CredentialEvent where
  | joined (username password : String)
  | issued (username : String) (token : Uuid) (time : Instant)
  | reset (username password : String) (token : Uuid)
  deriving DecidableEq

/-- Sign-ups, issued tokens and resets tell of credentials, if they have succeeded. -/
def Answered.credential? : Answered → Option CredentialEvent
  | ⟨_, .signUp username password, .ok _⟩ => some (.joined username password)
  | ⟨given, .forgotPassword username, .ok account⟩ =>
    account.resetToken.map fun token => .issued username token given.now
  | ⟨_, .resetPassword password token, .ok account⟩ =>
    some (.reset account.username password token)
  | _ => none

namespace CredentialEvent

/-- The password that a reset has set for an account. -/
def password? (username : String) : CredentialEvent → Option String
  | .reset name password _ => if name = username then some password else none
  | _ => none

/-- The password that an account was signed up with. -/
def firstPassword? (username : String) : CredentialEvent → Option String
  | .joined name password => if name = username then some password else none
  | _ => none

/-- The token that a reset was completed with. -/
def spent? : CredentialEvent → Option Uuid
  | .reset _ _ token => some token
  | _ => none

end CredentialEvent

open CredentialEvent

/-- The password of an account: that of its latest reset, or else that of its sign-up. -/
def currentPassword? (es : List CredentialEvent) (username : String) : Option String :=
  latestOrFirst? (password? username) (firstPassword? username) es

/-- The token was issued to the account at this time; since then none was issued to it, and no reset
was completed with this one. -/
def IsPending (es : List CredentialEvent) (username : String) (token : Uuid) (time : Instant) :
    Prop :=
  ∃ before after, es = before ++ .issued username token time :: after ∧
    ∀ e ∈ after, (∀ token' time', e ≠ .issued username token' time') ∧
      ∀ name password, e ≠ .reset name password token

/-- The tokens that resets were completed with, in order. -/
def spentTokens (es : List CredentialEvent) : List Uuid :=
  es.filterMap spent?

variable {es : List CredentialEvent} {e : CredentialEvent} {username : String} {token : Uuid}
variable {time : Instant}

/-! ## One more event -/

/-- A token is pending after an event that issues it, or if it was before and the event neither
replaces nor spends it. -/
theorem isPending_append : IsPending (es ++ [e]) username token time ↔
    e = .issued username token time ∨
      IsPending es username token time ∧ (∀ token' time', e ≠ .issued username token' time') ∧
        ∀ name password, e ≠ .reset name password token := by
  constructor
  · rintro ⟨before, after, hes, hafter⟩
    rcases split_append_singleton hes with ⟨-, hlast, -⟩ | ⟨rest, rfl, hinit⟩
    · exact .inl hlast.symm
    · refine .inr ⟨⟨before, rest, hinit, fun e' he => hafter e' ?_⟩, hafter e ?_⟩
      · exact List.mem_append_left _ he
      · exact List.mem_append_right _ (List.mem_singleton.2 rfl)
  · rintro (rfl | ⟨⟨before, after, rfl, hafter⟩, hlast⟩)
    · exact ⟨es, [], rfl, fun e he => nomatch he⟩
    · refine ⟨before, after ++ [e], by simp, ?_⟩
      intro e' he'
      rcases List.mem_append.1 he' with he' | he'
      · exact hafter e' he'
      · rw [List.mem_singleton.1 he']
        exact hlast

theorem mem_of_isPending (h : IsPending es username token time) :
    .issued username token time ∈ es := by
  obtain ⟨before, after, rfl, -⟩ := h
  simp

/-! ## Tokens in order -/

/-- If every token that is issued is drawn for it, and every reset was completed with a pending
token, then a pending token is one account's and is not spent, and no token is spent twice. -/
structure TokensInOrder (drawn : List Uuid) (es : List CredentialEvent) : Prop where
  issued : ∀ username token time, .issued username token time ∈ es → token ∈ drawn
  spent : ∀ token ∈ spentTokens es, token ∈ drawn
  owner : ∀ {username name token time time'}, IsPending es username token time →
    IsPending es name token time' → username = name
  unspent : ∀ {username token time}, IsPending es username token time → token ∉ spentTokens es
  once : (spentTokens es).Nodup

namespace TokensInOrder

variable {drawn : List Uuid}

theorem empty : TokensInOrder [] [] where
  issued := fun _ _ _ h => nomatch h
  spent := fun _ h => nomatch h
  owner := by
    rintro _ _ _ _ _ ⟨before, after, h, -⟩
    simp at h
  unspent := fun _ h => nomatch h
  once := List.nodup_nil

/-- A token may be drawn for something else. -/
theorem draw (h : TokensInOrder drawn es) (token : Uuid) : TokensInOrder (drawn ++ [token]) es where
  issued := fun username token time he => List.mem_append_left _ (h.issued username token time he)
  spent := fun token he => List.mem_append_left _ (h.spent token he)
  owner := h.owner
  unspent := h.unspent
  once := h.once

theorem join (h : TokensInOrder drawn es) (username password : String) :
    TokensInOrder drawn (es ++ [.joined username password]) := by
  have hspent : spentTokens (es ++ [.joined username password]) = spentTokens es := by
    simp [spentTokens, spent?]
  have hpending {name : String} {token : Uuid} {time : Instant}
      (hp : IsPending (es ++ [.joined username password]) name token time) :
      IsPending es name token time := by
    rcases isPending_append.1 hp with heq | ⟨hp, -⟩
    · cases heq
    · exact hp
  refine ⟨?_, ?_, fun hp hp' => h.owner (hpending hp) (hpending hp'), fun hp => ?_, ?_⟩
  · intro name token time he
    simp only [List.mem_append, List.mem_singleton, reduceCtorEq, or_false] at he
    exact h.issued name token time he
  · exact hspent ▸ h.spent
  · exact hspent ▸ h.unspent (hpending hp)
  · exact hspent ▸ h.once

/-- A token is drawn and issued. -/
theorem issue (h : TokensInOrder drawn es) (hfresh : token ∉ drawn) (username : String)
    (time : Instant) :
    TokensInOrder (drawn ++ [token]) (es ++ [.issued username token time]) := by
  have hspent : spentTokens (es ++ [.issued username token time]) = spentTokens es := by
    simp [spentTokens, spent?]
  have hpending {name : String} {other : Uuid} {time' : Instant}
      (hp : IsPending (es ++ [.issued username token time]) name other time') :
      name = username ∧ other = token ∨ IsPending es name other time' ∧ other ∈ drawn := by
    rcases isPending_append.1 hp with heq | ⟨hp, -⟩
    · cases heq
      exact .inl ⟨rfl, rfl⟩
    · exact .inr ⟨hp, h.issued _ _ _ (mem_of_isPending hp)⟩
  refine ⟨?_, ?_, ?_, ?_, ?_⟩
  · intro name other time' he
    rcases List.mem_append.1 he with he | he
    · exact List.mem_append_left _ (h.issued name other time' he)
    · cases List.mem_singleton.1 he
      exact List.mem_append_right _ (List.mem_singleton.2 rfl)
  · intro other ho
    exact List.mem_append_left _ (h.spent other (hspent ▸ ho))
  · intro name name' other t t' hp hp'
    rcases hpending hp with ⟨rfl, rfl⟩ | ⟨hold, hdrawn⟩
    · rcases hpending hp' with ⟨rfl, -⟩ | ⟨-, hdrawn⟩
      · rfl
      · exact (hfresh hdrawn).elim
    · rcases hpending hp' with ⟨-, rfl⟩ | ⟨hold', -⟩
      · exact (hfresh hdrawn).elim
      · exact h.owner hold hold'
  · intro name other t hp
    rw [hspent]
    rcases hpending hp with ⟨-, rfl⟩ | ⟨hold, -⟩
    · exact fun hmem => hfresh (h.spent _ hmem)
    · exact h.unspent hold
  · exact hspent ▸ h.once

/-- A pending token is spent. -/
theorem spend (h : TokensInOrder drawn es) (hpending : IsPending es username token time)
    (password : String) : TokensInOrder drawn (es ++ [.reset username password token]) := by
  have hspent : spentTokens (es ++ [.reset username password token]) =
      spentTokens es ++ [token] := by
    simp [spentTokens, spent?]
  have hold {name : String} {other : Uuid} {time' : Instant}
      (hp : IsPending (es ++ [.reset username password token]) name other time') :
      IsPending es name other time' ∧ other ≠ token := by
    rcases isPending_append.1 hp with heq | ⟨hp, -, hne⟩
    · cases heq
    · refine ⟨hp, ?_⟩
      rintro rfl
      exact hne username password rfl
  refine ⟨?_, ?_, fun hp hp' => h.owner (hold hp).1 (hold hp').1, fun hp => ?_, ?_⟩
  · intro name other time' he
    simp only [List.mem_append, List.mem_singleton, reduceCtorEq, or_false] at he
    exact h.issued name other time' he
  · intro other ho
    rw [hspent] at ho
    rcases List.mem_append.1 ho with ho | ho
    · exact h.spent other ho
    · rw [List.mem_singleton.1 ho]
      exact h.issued _ _ _ (mem_of_isPending hpending)
  · rw [hspent]
    simp only [List.mem_append, List.mem_singleton, not_or]
    exact ⟨h.unspent (hold hp).1, (hold hp).2⟩
  · rw [hspent]
    exact h.once.append (List.nodup_singleton token)
      (List.disjoint_singleton.2 (h.unspent hpending))

end TokensInOrder

end Latchkey
