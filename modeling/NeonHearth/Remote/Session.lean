import NeonHearth.Domain.Types

/-!
# Phone sessions

The session row of a paired phone with the updates the store performs on it.  Each update is a
single SQL statement, so each is one atomic function on the row here.

Instants are nanoseconds since the Unix epoch.  The store writes them as RFC 3339 text of fixed
width with microseconds (`encodeTime`), whose text order is the chronological one.
-/

namespace NeonHearth.Remote

/-- Session ids and command ids: 128-bit UUIDs. -/
abbrev Uuid := Fin (2 ^ 128)

/-- One microsecond. -/
def microsecond : ℤ := 1000

/-- The instant that is read back after `t` has been stored. -/
def encodeTime (t : ℤ) : ℤ := t / microsecond * microsecond

theorem encodeTime_mono {t u : ℤ} (h : t ≤ u) : encodeTime t ≤ encodeTime u := by
  simp only [encodeTime, microsecond]
  omega

/-- Phone session lifetime, slid forward by use. -/
def phoneSessionTtlDays : ℤ := 30

/-- Grace window of a step-up. -/
def stepupGraceMinutes : ℤ := 5

/-- Wrong PINs a failure window allows. -/
def pinMaxFailures : ℕ := 5

/-- Length of a failure window and of the lock that ends it. -/
def pinWindowMinutes : ℤ := 15

/-- The sliding expiry is written back at most once per this many seconds. -/
def sessionTouchIntervalSecs : ℤ := 60

/-- The columns of a session row that change after pairing. -/
structure PhoneSessionRow where
  /-- End of the session. -/
  expiresAt : ℤ
  /-- Last authentication that was written back. -/
  lastUsedAt : Option ℤ
  /-- Set by revocation, never reset. -/
  revoked : Bool
  /-- End of the step-up grace. -/
  stepupExpiresAt : Option ℤ
  /-- Wrong PINs charged in the current failure window. -/
  pinFailedCount : ℕ
  /-- Start of the current failure window. -/
  pinWindowStartedAt : Option ℤ
  /-- PIN attempts are refused before this instant. -/
  pinLockedUntil : Option ℤ
  deriving DecidableEq

namespace PhoneSessionRow

/-- The row of a phone paired at `now`. -/
def paired (now : ℤ) : PhoneSessionRow where
  expiresAt := encodeTime (now + days phoneSessionTtlDays)
  lastUsedAt := none
  revoked := false
  stepupExpiresAt := none
  pinFailedCount := 0
  pinWindowStartedAt := none
  pinLockedUntil := none

variable (row : PhoneSessionRow)

/-- `revoke_phone_session`. -/
def revoke : PhoneSessionRow := { row with revoked := true }

/-- `touch_phone_session`. -/
def touch (lastUsedAt expiresAt : ℤ) : PhoneSessionRow :=
  { row with lastUsedAt := some (encodeTime lastUsedAt), expiresAt := encodeTime expiresAt }

/-- The session is refused by a request that reads the clock as `now`. -/
def dead (now : ℤ) : Bool := row.revoked || decide (row.expiresAt ≤ now)

/-- The sliding expiry is due to be written back. -/
def touchDue (now : ℤ) : Bool :=
  match row.lastUsedAt with
  | none => true
  | some lastUsedAt => seconds sessionTouchIntervalSecs ≤ now - lastUsedAt

/-- `grant_stepup`: grants a grace window and clears the PIN failure state. -/
def grantStepup (expiresAt : ℤ) : PhoneSessionRow :=
  { row with
    stepupExpiresAt := some (encodeTime expiresAt)
    pinFailedCount := 0
    pinWindowStartedAt := none
    pinLockedUntil := none }

/-- The failure window that starts later than `floor` is still live. -/
def windowLive (floor : ℤ) : Bool :=
  match row.pinWindowStartedAt with
  | none => false
  | some startedAt => floor < startedAt

/-- The count that one more failure leaves. -/
def nextFailedCount (floor : ℤ) : ℕ :=
  if row.windowLive floor then row.pinFailedCount + 1 else 1

/-- `record_pin_failure`: one `UPDATE` decides the window, the count and the lock. -/
def recordPinFailure (now : ℤ) (window : ℤ) (maxFailures : ℕ) : PhoneSessionRow :=
  let floor := encodeTime (now - window)
  { row with
    pinFailedCount := row.nextFailedCount floor
    pinWindowStartedAt :=
      if row.windowLive floor then row.pinWindowStartedAt else some (encodeTime now)
    pinLockedUntil :=
      if maxFailures ≤ row.nextFailedCount floor then some (encodeTime (now + window)) else none }

/-- PIN attempts are refused by a request that reads the clock as `now`. -/
def pinLocked (now : ℤ) : Bool :=
  match row.pinLockedUntil with
  | none => false
  | some lockedUntil => now < lockedUntil

end PhoneSessionRow

end NeonHearth.Remote
