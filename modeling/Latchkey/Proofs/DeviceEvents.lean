import Mathlib.Data.List.Nodup
import Latchkey.Proofs.Transcript

/-!
# What is told of devices

A sign-in tells that a device is registered, and two requests tell that devices are signed out. From
the answers to such requests, and from nothing else, it is known which devices an account still
holds: those that no later answer has revoked, whether they have expired or not.
-/

namespace Latchkey

/-- A device as its sign-in tells of it: whose it is, its token, when it was signed in and from
where. -/
structure Registration where
  username : String
  token : Uuid
  time : Instant
  fingerprint : Option Fingerprint
  deriving DecidableEq

/-- What an answer tells of devices. -/
inductive DeviceEvent where
  | registered (r : Registration)
  | revoked (username : String) (token : Uuid)
  | revokedAll (username : String)
  deriving DecidableEq

/-- Sign-ins and revocations tell of devices, if they have succeeded. -/
def Answered.device? : Answered → Option DeviceEvent
  | ⟨given, .signIn username _ fingerprint, .ok tokens⟩ =>
    tokens.refresh.map fun token => .registered ⟨username, token, given.now, fingerprint⟩
  | ⟨_, .revokeDevice username token, .ok _⟩ => some (.revoked username token)
  | ⟨_, .revokeAllDevices username, .ok _⟩ => some (.revokedAll username)
  | _ => none

namespace DeviceEvent

/-- The device that is registered. -/
def registration? : DeviceEvent → Option Registration
  | .registered r => some r
  | _ => none

/-- The event signs the device out. -/
def revokes (r : Registration) : DeviceEvent → Bool
  | .registered _ => false
  | .revoked username token => username = r.username && token = r.token
  | .revokedAll username => username = r.username

end DeviceEvent

open DeviceEvent

/-- All devices that were registered, in order. -/
def registrations (es : List DeviceEvent) : List Registration :=
  es.filterMap registration?

/-- The devices that no later event has revoked, in the order of their registration. -/
def held : List DeviceEvent → List Registration
  | [] => []
  | .registered r :: es => if es.any (·.revokes r) then held es else r :: held es
  | _ :: es => held es

variable {es : List DeviceEvent} {e : DeviceEvent} {r : Registration}

/-- A device is held if it was registered and no event since then revokes it. -/
theorem mem_held : r ∈ held es ↔
    ∃ before after, es = before ++ .registered r :: after ∧ ∀ e ∈ after, e.revokes r = false := by
  induction es with
  | nil => simp [held]
  | cons e es ih =>
    have hlater : (∃ before after, e :: es = before ++ .registered r :: after ∧
        ∀ e ∈ after, e.revokes r = false) ↔
        e = .registered r ∧ (∀ e ∈ es, e.revokes r = false) ∨ r ∈ held es := by
      rw [ih]
      constructor
      · rintro ⟨before, after, hes, hafter⟩
        cases before with
        | nil =>
          obtain ⟨rfl, rfl⟩ := List.cons.inj hes
          exact .inl ⟨rfl, hafter⟩
        | cons first before =>
          obtain ⟨rfl, rfl⟩ := List.cons.inj hes
          exact .inr ⟨before, after, rfl, hafter⟩
      · rintro (⟨rfl, hafter⟩ | ⟨before, after, rfl, hafter⟩)
        · exact ⟨[], es, rfl, hafter⟩
        · exact ⟨e :: before, after, rfl, hafter⟩
    rw [hlater]
    cases e with
    | registered r' =>
      by_cases hrevoked : es.any (·.revokes r') = true
      · simp only [held, hrevoked, if_true, registered.injEq]
        constructor
        · exact .inr
        · rintro (⟨rfl, hafter⟩ | hr)
          · obtain ⟨e, he, hrevokes⟩ := List.any_eq_true.1 hrevoked
            rw [hafter e he] at hrevokes
            cases hrevokes
          · exact hr
      · have hkept : ∀ e ∈ es, e.revokes r' = false := by simpa using hrevoked
        simp only [held, if_neg hrevoked, List.mem_cons, registered.injEq]
        constructor
        · rintro (rfl | hr)
          · exact .inl ⟨rfl, hkept⟩
          · exact .inr hr
        · rintro (⟨rfl, -⟩ | hr)
          · exact .inl rfl
          · exact .inr hr
    | revoked username token => simp [held]
    | revokedAll username => simp [held]

/-- One more event takes away what it revokes and adds what it registers. -/
theorem held_append :
    held (es ++ [e]) = (held es).filter (!e.revokes ·) ++ e.registration?.toList := by
  induction es with
  | nil => cases e <;> simp [held, registration?]
  | cons e' es ih =>
    cases e' with
    | registered r =>
      by_cases hrevoked : es.any (·.revokes r) = true
      · simp only [List.cons_append, held, List.any_append, hrevoked, Bool.true_or, if_true, ih]
      · cases hlast : e.revokes r with
        | true => simp [held, hrevoked, hlast, ih]
        | false => simp [held, hrevoked, hlast, ih]
    | revoked username token => exact ih
    | revokedAll username => exact ih

/-- No order is changed and nothing is held that was not registered. -/
theorem held_sublist (es : List DeviceEvent) : (held es).Sublist (registrations es) := by
  induction es with
  | nil => exact .slnil
  | cons e es ih =>
    cases e with
    | registered r =>
      have hcons : registrations (.registered r :: es) = r :: registrations es := rfl
      rw [hcons, held]
      split
      · exact ih.cons r
      · exact ih.cons_cons r
    | revoked username token => exact ih
    | revokedAll username => exact ih

theorem registrations_append :
    registrations (es ++ [e]) = registrations es ++ e.registration?.toList :=
  filterMap_append_singleton registration?

/-- Where a list has no member twice, a part of it is what is left of the whole. -/
theorem eq_filter_of_sublist {α : Type} [DecidableEq α] {xs ys : List α} (h : xs.Sublist ys)
    (hnodup : ys.Nodup) : xs = ys.filter (· ∈ xs) := by
  induction h with
  | slnil => rfl
  | cons y hsub ih =>
    obtain ⟨hy, hys⟩ := List.nodup_cons.1 hnodup
    rw [List.filter_cons, if_neg (by simpa using fun hmem => hy (hsub.subset hmem))]
    exact ih hys
  | cons_cons y hsub ih =>
    obtain ⟨hy, hys⟩ := List.nodup_cons.1 hnodup
    rw [List.filter_cons, if_pos (by simp)]
    refine congrArg (y :: ·) ((ih hys).trans (List.filter_congr ?_))
    intro z hz
    have hne : z ≠ y := fun heq => hy (heq ▸ hz)
    simp [hne]

end Latchkey
