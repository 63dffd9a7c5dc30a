import Mathlib.Algebra.Group.Nat.Defs

namespace AlpSdk.SlotClaim

-- `ALP_HANDLE_LC_*`, the lifecycle byte of a handle.
inductive Lifecycle where
  | unopened
  | opened
  | closing
  deriving DecidableEq, Repr

-- `__atomic_fetch_add` and `__atomic_fetch_sub` of 1 on the `uint32_t` counter.
def fetchAdd (n : Nat) : Nat := (n + 1) % 2 ^ 32
def fetchSub (n : Nat) : Nat := (n + (2 ^ 32 - 1)) % 2 ^ 32

theorem fetchAdd_of_lt {n : Nat} (h : n + 1 < 2 ^ 32) : fetchAdd n = n + 1 := Nat.mod_eq_of_lt h

theorem fetchAdd_lt (n : Nat) : fetchAdd n < 2 ^ 32 := Nat.mod_lt _ (by decide)

theorem fetchSub_of_pos {n : Nat} (h : 0 < n) (hlt : n < 2 ^ 32) : fetchSub n = n - 1 := by
  unfold fetchSub
  omega

-- A counter that is exact stays so when a holder comes or goes.
theorem exact_enter {n n' held held' : Nat} (hexact : n = held) (hops : n' = fetchAdd n)
    (hheld : held' = held + 1) (hlt : held + 1 < 2 ^ 32) : n' = held' ∧ held' < 2 ^ 32 := by
  rw [hops, hexact, fetchAdd_of_lt hlt]
  omega

theorem exact_leave {n n' held held' : Nat} (hexact : n = held) (hops : n' = fetchSub n)
    (hheld : held = held' + 1) (hlt : held < 2 ^ 32) : n' = held' ∧ held' < 2 ^ 32 := by
  rw [hops, fetchSub_of_pos (by omega) (by omega)]
  omega

end AlpSdk.SlotClaim
