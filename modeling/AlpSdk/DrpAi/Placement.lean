import AlpSdk.DrpAi.Arena

namespace AlpSdk.DrpAi

open Library.Transition Library.Threads

-- The ranges recorded in an arena lie in order between its base and the pre-processing
-- reserve, each from a 16 MiB boundary on.
structure WellPlaced (a : Arena) : Prop where
  fits : a.base.toNat + a.size.toNat < 2 ^ 64
  inside : ∀ r ∈ a.live, a.base.toNat ≤ r.start.toNat ∧ r.start.toNat < r.stop.toNat ∧
    r.stop.toNat + 2 ^ 25 ≤ a.base.toNat + a.size.toNat
  aligned : ∀ r ∈ a.live, r.start.toNat % 2 ^ 24 = 0
  sorted : a.live.Pairwise fun r r' => r.stop.toNat ≤ r'.start.toNat

-- An address a model may be loaded at.
structure Placeable (a : Arena) (start : UInt64) : Prop where
  above : a.base.toNat ≤ start.toNat
  below : start.toNat + 2 ^ 25 < a.base.toNat + a.size.toNat
  aligned : start.toNat % 2 ^ 24 = 0
  clear : ∀ r ∈ a.live, r.stop.toNat ≤ start.toNat

section Arithmetic

theorem and_mask (w : ℕ) (hw : w < 2 ^ 64) : w &&& ((2 ^ 40 - 1) <<< 24) = w / 2 ^ 24 * 2 ^ 24 := by
  rw [← Nat.shiftRight_eq_div_pow, ← Nat.shiftLeft_eq]
  apply Nat.eq_of_testBit_eq
  intro i
  rw [Nat.testBit_and, Nat.testBit_shiftLeft, Nat.testBit_two_pow_sub_one, Nat.testBit_shiftLeft,
    Nat.testBit_shiftRight]
  by_cases hlow : i ≥ 24
  · rw [show 24 + (i - 24) = i by omega]
    by_cases hhigh : i < 64
    · simp [hlow, show i - 24 < 40 by omega]
    · have hzero : w.testBit i = false := Nat.testBit_lt_two_pow
        (Nat.lt_of_lt_of_le hw (Nat.pow_le_pow_right (by decide) (by omega)))
      simp [hzero]
  · simp [hlow]

theorem alignUp_toNat {v : UInt64} (h : v.toNat + 2 ^ 24 ≤ 2 ^ 64) :
    (alignUp v).toNat = (v.toNat + (2 ^ 24 - 1)) / 2 ^ 24 * 2 ^ 24 := by
  have hmask : (~~~(kArenaAlign - 1)).toNat = (2 ^ 40 - 1) <<< 24 := by decide
  have hsum : (v + (kArenaAlign - 1)).toNat = v.toNat + (2 ^ 24 - 1) := by
    rw [UInt64.toNat_add]
    exact Nat.mod_eq_of_lt (by have : (kArenaAlign - 1).toNat = 2 ^ 24 - 1 := by decide
                               omega)
  unfold alignUp
  rw [UInt64.toNat_and, hmask, hsum, and_mask _ (by omega)]

theorem limit_toNat {a : Arena} (h : WellPlaced a) (hsize : a.size > kArenaPreprocReserve) :
    a.limit.toNat + 2 ^ 25 = a.base.toNat + a.size.toNat := by
  have hreserve : kArenaPreprocReserve.toNat = 2 ^ 25 := by decide
  have hfits := h.fits
  rw [GT.gt, UInt64.lt_iff_toNat_lt, hreserve] at hsize
  have hsum : (a.base + a.size).toNat = a.base.toNat + a.size.toNat := by
    rw [UInt64.toNat_add]
    exact Nat.mod_eq_of_lt hfits
  unfold Arena.limit
  rw [if_pos (by rw [GT.gt, UInt64.lt_iff_toNat_lt, hreserve]; exact hsize),
    UInt64.toNat_sub_of_le _ _ (by rw [UInt64.le_iff_toNat_le, hreserve, hsum]; omega), hsum, hreserve]
  omega

theorem max_toNat (a b : UInt64) : (max a b).toNat = max a.toNat b.toNat := by
  rw [UInt64.max_def]
  by_cases h : a ≤ b
  · rw [if_pos h, Nat.max_eq_right (UInt64.le_iff_toNat_le.mp h)]
  · have hlt : b.toNat < a.toNat := Nat.lt_of_not_le fun hle => h (UInt64.le_iff_toNat_le.mpr hle)
    rw [if_neg h, Nat.max_eq_left (Nat.le_of_lt hlt)]

-- The highest end among the ranges, from `c` on.
theorem highest_spec (live : List Range) (c : UInt64) :
    let top := live.foldl (fun c r => max c r.stop) c
    c.toNat ≤ top.toNat ∧ (∀ r ∈ live, r.stop.toNat ≤ top.toNat) ∧
      (top = c ∨ ∃ r ∈ live, top = r.stop) := by
  induction live generalizing c with
  | nil => exact ⟨Nat.le_refl _, by simp, Or.inl rfl⟩
  | cons r live ih =>
      obtain ⟨hfrom, hall, htop⟩ := ih (max c r.stop)
      rw [max_toNat] at hfrom
      refine ⟨by simp only [List.foldl_cons]; omega, ?_, ?_⟩
      · intro x hx
        rcases List.mem_cons.mp hx with rfl | hx
        · simp only [List.foldl_cons]
          omega
        · exact hall x hx
      · rcases htop with heq | ⟨x, hx, heq⟩
        · simp only [List.foldl_cons, heq]
          rw [UInt64.max_def]
          by_cases hle : c ≤ r.stop
          · exact Or.inr ⟨r, by simp, by rw [if_pos hle]⟩
          · exact Or.inl (by rw [if_neg hle])
        · exact Or.inr ⟨x, by simp [hx], heq⟩

end Arithmetic

section Arena

variable {a a' : Arena} {start : UInt64}

theorem Arena.begin_spec (h : WellPlaced a) (area : Area) {out : Option UInt64}
    (hbegin : a.begin area.base area.size = (a', out)) :
    WellPlaced a' ∧ a'.live = a.live ∧ a'.lockHolders = a.lockHolders ∧ a'.lockFd = a.lockFd ∧
      ∀ start, out = some start → Placeable a' start := by
  unfold Arena.begin at hbegin
  by_cases hmoved : a.live ≠ [] ∧ (a.base ≠ area.base ∨ a.size ≠ area.size)
  · rw [if_pos hmoved] at hbegin
    cases hbegin
    exact ⟨h, rfl, rfl, rfl, by simp⟩
  · rw [if_neg hmoved] at hbegin
    generalize hset : (if a.live = [] then { a with base := area.base, size := area.size } else a) =
      next at hbegin
    have hnext : WellPlaced next ∧ next.live = a.live ∧ next.lockHolders = a.lockHolders ∧
        next.lockFd = a.lockFd := by
      by_cases hempty : a.live = []
      · rw [if_pos hempty] at hset
        subst hset
        exact ⟨⟨area.fits, by simp [hempty], by simp [hempty], by simp [hempty]⟩, rfl, rfl, rfl⟩
      · rw [if_neg hempty] at hset
        subst hset
        exact ⟨h, rfl, rfl, rfl⟩
    obtain ⟨hplaced, hlive, hholders, hfd⟩ := hnext
    simp only [Prod.mk.injEq] at hbegin
    obtain ⟨rfl, rfl⟩ := hbegin
    refine ⟨hplaced, hlive, hholders, hfd, ?_⟩
    intro start hstart
    rw [Option.ite_none_right_eq_some] at hstart
    obtain ⟨⟨hlimit, hbase⟩, hstart⟩ := hstart
    cases hstart
    rw [UInt64.lt_iff_toNat_lt] at hlimit
    rw [ge_iff_le, UInt64.le_iff_toNat_le] at hbase
    -- An area no larger than the reserve has its limit at its base, and nothing fits.
    have hsize : next.size > kArenaPreprocReserve := by
      by_contra hsmall
      rw [Arena.limit, if_neg hsmall] at hlimit
      omega
    have hend := limit_toNat hplaced hsize
    have hfits := hplaced.fits
    obtain ⟨hfrom, hall, htop⟩ := highest_spec next.live next.base
    have hcursor : next.cursor.toNat + 2 ^ 25 ≤ next.base.toNat + next.size.toNat := by
      unfold Arena.cursor
      rcases htop with heq | ⟨r, hr, heq⟩
      · rw [heq]
        omega
      · rw [heq]
        exact (hplaced.inside r hr).2.2
    have halign := alignUp_toNat (v := next.cursor) (by omega)
    exact {
      above := hbase
      below := by omega
      aligned := by rw [halign]; exact Nat.mul_mod_left _ _
      clear := by
        intro r hr
        have hstop : r.stop.toNat ≤ next.cursor.toNat := hall r hr
        omega }

theorem Arena.commit_spec (h : WellPlaced a) (hstart : Placeable a start) (lastAddress : UInt64)
    {out : Option Range} (hcommit : a.commit start lastAddress = (a', out)) :
    a'.lockHolders = a.lockHolders ∧ a'.lockFd = a.lockFd ∧ WellPlaced a' ∧
      (out = none ∧ a' = a ∨ (∃ r, out = some r ∧ r.start = r.stop ∧ a' = a) ∨
        ∃ r, out = some r ∧ r ∉ a.live ∧ a'.live = a.live ++ [r]) := by
  unfold Arena.commit at hcommit
  by_cases hzero : lastAddress = 0
  · rw [if_pos hzero] at hcommit
    cases hcommit
    exact ⟨rfl, rfl, h, Or.inr (Or.inl ⟨_, rfl, rfl, rfl⟩)⟩
  · rw [if_neg hzero] at hcommit
    by_cases hbad : lastAddress ≤ start ∨ lastAddress > a.limit
    · rw [if_pos hbad] at hcommit
      cases hcommit
      exact ⟨rfl, rfl, h, Or.inl ⟨rfl, rfl⟩⟩
    · rw [if_neg hbad] at hcommit
      cases hcommit
      have hafter : start.toNat < lastAddress.toNat := by
        rw [← UInt64.lt_iff_toNat_lt]
        exact UInt64.not_le.mp fun hle => hbad (Or.inl hle)
      have hlimit : lastAddress.toNat ≤ a.limit.toNat := by
        rw [← UInt64.le_iff_toNat_le]
        exact UInt64.not_lt.mp fun hgt => hbad (Or.inr hgt)
      have hbelow := hstart.below
      have hend := limit_toNat h (by
        rw [GT.gt, UInt64.lt_iff_toNat_lt]
        have hreserve : kArenaPreprocReserve.toNat = 2 ^ 25 := by decide
        have habove := hstart.above
        omega)
      have hroom : lastAddress.toNat + 2 ^ 25 ≤ a.base.toNat + a.size.toNat := by omega
      refine ⟨rfl, rfl, ⟨h.fits, ?_, ?_, ?_⟩, Or.inr (Or.inr ⟨_, rfl, ?_, rfl⟩)⟩
      · intro r hr
        rcases List.mem_append.mp hr with hr | hr
        · exact h.inside r hr
        · cases List.mem_singleton.mp hr
          exact ⟨hstart.above, hafter, hroom⟩
      · intro r hr
        rcases List.mem_append.mp hr with hr | hr
        · exact h.aligned r hr
        · cases List.mem_singleton.mp hr
          exact hstart.aligned
      · refine List.pairwise_append.mpr ⟨h.sorted, List.pairwise_singleton _ _, ?_⟩
        intro r hr r' hr'
        cases List.mem_singleton.mp hr'
        exact hstart.clear r hr
      · intro hmem
        have hclear := hstart.clear _ hmem
        simp only at hclear
        omega

theorem WellPlaced.nodup (h : WellPlaced a) : a.live.Nodup := by
  refine List.Pairwise.imp_of_mem ?_ h.sorted
  rintro r r' hr - hle rfl
  have hinside := h.inside r hr
  omega

theorem Arena.release_spec (h : WellPlaced a) (r : Range) :
    WellPlaced (a.release r) ∧ (a.release r).lockHolders = a.lockHolders ∧
      (a.release r).lockFd = a.lockFd ∧
      ∀ x, x ∈ (a.release r).live ↔ x ∈ a.live ∧ (r.start = r.stop ∨ x ≠ r) := by
  unfold Arena.release
  by_cases hempty : r.start = r.stop
  · rw [if_pos hempty]
    exact ⟨h, rfl, rfl, fun x => by simp [hempty]⟩
  · rw [if_neg hempty]
    refine ⟨⟨h.fits, ?_, ?_, h.sorted.erase r⟩, rfl, rfl, ?_⟩
    · exact fun x hx => h.inside x (List.mem_of_mem_erase hx)
    · exact fun x hx => h.aligned x (List.mem_of_mem_erase hx)
    · intro x
      rw [h.nodup.mem_erase_iff]
      simp [hempty, and_comm]

end Arena

section Ledger

variable {H : Type} {live live' : List Range} {range : H → Option Range}

-- The recorded ranges are those of the handles, each recorded for one handle only.
structure Ledger (live : List Range) (range : H → Option Range) : Prop where
  recorded : ∀ i r, range i = some r → r.start ≠ r.stop → r ∈ live
  owned : ∀ r ∈ live, ∃ i, range i = some r
  distinct : ∀ i j r, i ≠ j → range i = some r → range j = some r → r.start = r.stop

variable [DecidableEq H] {i : H}

theorem Ledger.same (h : Ledger live range) {new : Option Range} (hlive : live' = live)
    (hsame : new = range i ∨ range i = none ∧ ∃ r, new = some r ∧ r.start = r.stop) :
    Ledger live' (Function.update range i new) := by
  subst hlive
  rcases hsame with rfl | ⟨hnone, r, rfl, hempty⟩
  · rw [Function.update_eq_self]
    exact h
  · have hcases : ∀ j x, Function.update range i (some r) j = some x →
        x = r ∧ j = i ∨ j ≠ i ∧ range j = some x := by
      intro j x hx
      by_cases hj : j = i
      · subst hj
        rw [Function.update_self] at hx
        exact Or.inl ⟨(Option.some.inj hx).symm, rfl⟩
      · rw [Function.update_of_ne hj] at hx
        exact Or.inr ⟨hj, hx⟩
    refine ⟨?_, ?_, ?_⟩
    · intro j x hx hfull
      rcases hcases j x hx with ⟨rfl, -⟩ | ⟨-, hold⟩
      · exact absurd hempty hfull
      · exact h.recorded j x hold hfull
    · intro x hx
      obtain ⟨j, hj⟩ := h.owned x hx
      have hne : j ≠ i := by
        rintro rfl
        simp [hnone] at hj
      exact ⟨j, by rw [Function.update_of_ne hne]; exact hj⟩
    · intro j k x hjk hj hk
      rcases hcases j x hj with ⟨rfl, -⟩ | ⟨-, hj⟩
      · exact hempty
      · rcases hcases k x hk with ⟨rfl, -⟩ | ⟨-, hk⟩
        · exact hempty
        · exact h.distinct j k x hjk hj hk

theorem Ledger.add (h : Ledger live range) {r : Range} (hnone : range i = none)
    (hnew : r ∉ live) (hfull : ∀ x ∈ live ++ [r], x.start ≠ x.stop) :
    Ledger (live ++ [r]) (Function.update range i (some r)) := by
  have hnotheld : ∀ j, range j ≠ some r := fun j hj =>
    hnew (h.recorded j r hj (hfull r (by simp)))
  refine ⟨?_, ?_, ?_⟩
  · intro j x hx hxfull
    by_cases hj : j = i
    · subst hj
      rw [Function.update_self] at hx
      cases hx
      simp
    · rw [Function.update_of_ne hj] at hx
      exact List.mem_append_left _ (h.recorded j x hx hxfull)
  · intro x hx
    rcases List.mem_append.mp hx with hx | hx
    · obtain ⟨j, hj⟩ := h.owned x hx
      have hne : j ≠ i := by
        rintro rfl
        simp [hnone] at hj
      exact ⟨j, by rw [Function.update_of_ne hne]; exact hj⟩
    · cases List.mem_singleton.mp hx
      exact ⟨i, Function.update_self ..⟩
  · intro j k x hjk hj hk
    by_cases hji : j = i
    · subst hji
      rw [Function.update_self] at hj
      rw [Function.update_of_ne hjk.symm] at hk
      cases hj
      exact absurd hk (hnotheld k)
    · rw [Function.update_of_ne hji] at hj
      by_cases hki : k = i
      · subst hki
        rw [Function.update_self] at hk
        cases hk
        exact absurd hj (hnotheld j)
      · rw [Function.update_of_ne hki] at hk
        exact h.distinct j k x hjk hj hk

theorem Ledger.remove (h : Ledger live range) {r : Range} (hheld : range i = some r)
    (hfull : ∀ x ∈ live, x.start ≠ x.stop)
    (hlive : ∀ x, x ∈ live' ↔ x ∈ live ∧ (r.start = r.stop ∨ x ≠ r)) :
    Ledger live' (Function.update range i none) := by
  have hkept : ∀ j x, Function.update range i none j = some x → j ≠ i ∧ range j = some x := by
    intro j x hx
    by_cases hj : j = i
    · subst hj
      simp at hx
    · rw [Function.update_of_ne hj] at hx
      exact ⟨hj, hx⟩
  refine ⟨?_, ?_, ?_⟩
  · intro j x hx hxfull
    obtain ⟨hj, hold⟩ := hkept j x hx
    refine (hlive x).mpr ⟨h.recorded j x hold hxfull, ?_⟩
    by_cases hsame : x = r
    · subst hsame
      exact Or.inl (h.distinct j i x hj hold hheld)
    · exact Or.inr hsame
  · intro x hx
    obtain ⟨hmem, hother⟩ := (hlive x).mp hx
    obtain ⟨j, hj⟩ := h.owned x hmem
    have hne : j ≠ i := by
      rintro rfl
      rw [hheld] at hj
      cases hj
      exact hother.elim (hfull _ hmem) (fun hx => hx rfl)
    exact ⟨j, by rw [Function.update_of_ne hne]; exact hj⟩
  · intro j k x hjk hj hk
    exact h.distinct j k x hjk (hkept j x hj).2 (hkept k x hk).2

end Ledger

-- The range a handle has in the arena.
def Phase.range : Phase → Option Range
  | .recorded r | .opened r | .tornDown r => some r
  | _ => none

-- Open, or being opened past the file lock; until the close gives its hold back.
def Phase.holds : Phase → Bool
  | .closed _ | .entered _ => false
  | _ => true

-- An open between taking the arena's mutex and dropping it.
def Phase.inSection : Phase → Bool
  | .entered _ | .admitted _ | .probed .. | .allocated .. | .staged .. | .placed .. | .loaded ..
  | .recorded _ => true
  | _ => false

-- An open past the file lock and short of its commit, with what it found.
def Phase.pending : Phase → Option Found
  | .admitted found | .probed found _ | .allocated found _ | .staged found _ | .placed found _
  | .loaded found _ => some found
  | _ => none

def Phase.hold (ph : Phase) : ℕ := if ph.holds then 1 else 0

-- What an open knows of the arena, its mutex held.
def Knows (a : Arena) : Phase → Prop
  | .entered found => found.live = a.live ∧ found.lockHolders = a.lockHolders
  | .admitted found | .probed found _ | .allocated found _ | .staged found _ =>
      found.live = a.live ∧ found.lockHolders + 1 = a.lockHolders
  | .placed found start | .loaded found start =>
      (found.live = a.live ∧ found.lockHolders + 1 = a.lockHolders) ∧ Placeable a start
  | _ => True

theorem pending_spec {ph : Phase} {found : Found} (h : ph.pending = some found) :
    ph.inSection = true ∧ ph.holds = true ∧ ph.range = none ∧
      ∀ a, Knows a ph → found.live = a.live ∧ found.lockHolders + 1 = a.lockHolders := by
  cases ph <;> simp_all [Phase.pending, Phase.inSection, Phase.holds, Phase.range, Knows]

section Step

variable {P H : Type} [DecidableEq H] [Fintype H]

-- One process: its arena, its mutex and the calls on its handles.
structure Local (s : Site H) (ph : H → Phase) : Prop where
  placed : WellPlaced s.arena
  ledger : Ledger s.arena.live fun i => (ph i).range
  owner : ∀ i, (ph i).inSection = true ↔ s.mutex = some i
  holders : s.arena.lockHolders.toNat = total Phase.hold ph
  knows : ∀ i, Knows s.arena (ph i)

variable {s s' : Site H} {ph : H → Phase} {i : H} {new : Phase}

theorem WellPlaced.of_same {a a' : Arena} (h : WellPlaced a) (hlive : a'.live = a.live)
    (hbase : a'.base = a.base) (hsize : a'.size = a.size) : WellPlaced a' where
  fits := by
    rw [hbase, hsize]
    exact h.fits
  inside := by
    rw [hbase, hsize, hlive]
    exact h.inside
  aligned := by
    rw [hlive]
    exact h.aligned
  sorted := by
    rw [hlive]
    exact h.sorted

theorem WellPlaced.full {a : Arena} (h : WellPlaced a) : ∀ r ∈ a.live, r.start ≠ r.stop := by
  rintro r hr heq
  have hinside := (h.inside r hr).2.1
  rw [heq] at hinside
  omega

theorem knows_outside {a : Arena} {ph : Phase} (h : ph.inSection = false) : Knows a ph := by
  cases ph <;> simp_all [Phase.inSection, Knows]

-- One operation on handle `i`, by what it does to each part of the invariant. The other
-- handles notice nothing: none of them is past the mutex while the arena changes.
theorem Local.update (h : Local s ph) (hplaced : WellPlaced s'.arena)
    (hledger : Ledger s'.arena.live (Function.update (fun i => (ph i).range) i new.range))
    (howner : new.inSection = true ↔ s'.mutex = some i)
    (hothers : ∀ j, j ≠ i → (s.mutex = some j ↔ s'.mutex = some j))
    (hholders : s'.arena.lockHolders.toNat + (ph i).hold = s.arena.lockHolders.toNat + new.hold)
    (hknows : Knows s'.arena new)
    (halone : s'.arena = s.arena ∨ ∀ j, j ≠ i → s.mutex ≠ some j) :
    Local s' (Function.update ph i new) where
  placed := hplaced
  ledger := by
    have hrange : (fun j => (Function.update ph i new j).range) =
        Function.update (fun j => (ph j).range) i new.range := by
      funext j
      exact Function.apply_update (fun _ => Phase.range) ph i new j
    rw [hrange]
    exact hledger
  owner := by
    intro j
    by_cases hj : j = i
    · subst hj
      rw [Function.update_self]
      exact howner
    · rw [Function.update_of_ne hj, h.owner j]
      exact hothers j hj
  holders := by
    have htotal := total_update Phase.hold ph i new
    rw [h.holders] at hholders
    omega
  knows := by
    intro j
    by_cases hj : j = i
    · subst hj
      rw [Function.update_self]
      exact hknows
    · rw [Function.update_of_ne hj]
      rcases halone with hsame | hfree
      · rw [hsame]
        exact h.knows j
      · apply knows_outside
        have hout := mt (h.owner j).mp (hfree j hj)
        simpa using hout

-- The file lock as process `p` knows it.
structure Locks (p : P) (lockFile : LockFile P) (a : Arena) : Prop where
  free : a.lockHolders = 0 → ∀ fd, lockFile ≠ some (p, fd)
  held : a.lockHolders ≠ 0 → lockFile = some (p, a.lockFd)

theorem Locks.of_same {p : P} {lockFile : LockFile P} {a a' : Arena} (h : Locks p lockFile a)
    (hholders : a'.lockHolders = a.lockHolders) (hfd : a'.lockFd = a.lockFd) :
    Locks p lockFile a' where
  free := by
    rw [hholders]
    exact h.free
  held := by
    rw [hholders, hfd]
    exact h.held

variable [DecidableEq P] {p : P} {lockFile lockFile' : LockFile P} {a a' : Arena}

theorem Arena.lockRelease_spec (h : Locks p lockFile a) (hheld : a.lockHolders ≠ 0)
    (hrelease : a.lockRelease p lockFile = (a', lockFile')) :
    a'.lockHolders = a.lockHolders - 1 ∧ a'.live = a.live ∧ a'.base = a.base ∧ a'.size = a.size ∧
      Locks p lockFile' a' ∧ ∀ q, q ≠ p → ∀ fd, lockFile' = some (q, fd) ↔ lockFile = some (q, fd) := by
  have hfile := h.held hheld
  unfold Arena.lockRelease at hrelease
  rw [if_neg hheld] at hrelease
  by_cases hlast : a.lockHolders - 1 = 0
  · rw [if_pos hlast] at hrelease
    cases hrelease
    unfold closeFd
    rw [if_pos hfile]
    refine ⟨hlast.symm, rfl, rfl, rfl, ⟨by simp, fun hne => absurd rfl hne⟩, ?_⟩
    intro q hq fd
    rw [hfile]
    simp [Ne.symm hq]
  · rw [if_neg hlast] at hrelease
    cases hrelease
    exact ⟨rfl, rfl, rfl, rfl, ⟨fun hzero => absurd hzero hlast, fun _ => hfile⟩, fun _ _ _ => Iff.rfl⟩

omit [DecidableEq P] in
theorem Arena.lockAcquire_spec (h : Locks p lockFile a) {t : LockTry} {out : Option Errno}
    (hacquire : a.lockAcquire p lockFile t = (out, a', lockFile'))
    (hroom : a.lockHolders + 1 ≠ 0) :
    a'.live = a.live ∧ a'.base = a.base ∧ a'.size = a.size ∧ Locks p lockFile' a' ∧
      (∀ q, q ≠ p → ∀ fd, lockFile' = some (q, fd) ↔ lockFile = some (q, fd)) ∧
      ((∃ err, out = some err ∧ a' = a) ∨ out = none ∧ a'.lockHolders = a.lockHolders + 1) := by
  unfold Arena.lockAcquire at hacquire
  by_cases hzero : a.lockHolders = 0
  · rw [if_pos hzero] at hacquire
    cases hopened : t.opened with
    | error err =>
        rw [hopened] at hacquire
        cases hacquire
        exact ⟨rfl, rfl, rfl, h, fun _ _ _ => Iff.rfl, Or.inl ⟨_, rfl, rfl⟩⟩
    | ok fd =>
        rw [hopened] at hacquire
        cases hflock : flock lockFile t with
        | some err =>
            simp only [hflock] at hacquire
            cases hacquire
            exact ⟨rfl, rfl, rfl, h, fun _ _ _ => Iff.rfl, Or.inl ⟨_, rfl, rfl⟩⟩
        | none =>
            simp only [hflock] at hacquire
            cases hacquire
            have hunlocked : lockFile = none := by
              unfold flock at hflock
              cases lockFile with
              | none => rfl
              | some holder => simp at hflock
            refine ⟨rfl, rfl, rfl, ⟨fun hnone => absurd hnone hroom, fun _ => rfl⟩, ?_, Or.inr ⟨rfl, rfl⟩⟩
            intro q hq fd'
            rw [hunlocked]
            simp [Ne.symm hq]
  · rw [if_neg hzero] at hacquire
    cases hacquire
    have hfile := h.held hzero
    exact ⟨rfl, rfl, rfl, ⟨fun hnone => absurd hnone hroom, fun _ => hfile⟩, fun _ _ _ => Iff.rfl,
      Or.inr ⟨rfl, rfl⟩⟩

-- What one operation on handle `i` of process `p` leaves.
structure Advanced (p : P) (i : H) (lockFile : LockFile P) (ph : H → Phase) (lockFile' : LockFile P)
    (s' : Site H) (new : Phase) : Prop where
  site : Local s' (Function.update ph i new)
  locks : Locks p lockFile' s'.arena
  others : ∀ q, q ≠ p → ∀ fd, lockFile' = some (q, fd) ↔ lockFile = some (q, fd)
  failed : (ph i).inSection = true → ∀ rc found, new = .closed (some (rc, found)) →
    s'.arena.live = found.live ∧ s'.arena.lockHolders = found.lockHolders

omit [DecidableEq H] in
theorem Local.holders_pos (h : Local s ph) (hholds : (ph i).holds = true) :
    s.arena.lockHolders ≠ 0 := by
  intro hzero
  have hle := le_total Phase.hold ph i
  rw [← h.holders, hzero, Phase.hold, if_pos hholds] at hle
  exact absurd hle (by decide)

theorem sub_one_toNat {n : UInt32} (h : n ≠ 0) : (n - 1).toNat + 1 = n.toNat := by
  have hpos : n.toNat ≠ 0 := fun hzero => h (UInt32.toNat_inj.mp hzero)
  rw [UInt32.toNat_sub_of_le _ _ (by rw [UInt32.le_iff_toNat_le, UInt32.toNat_one]; omega),
    UInt32.toNat_one]
  omega

omit [DecidableEq P] in
-- An operation that touches neither the arena nor the mutex.
theorem Local.progress (h : Local s ph) (hlocks : Locks p lockFile s.arena)
    (hrange : new.range = (ph i).range) (hsection : new.inSection = (ph i).inSection)
    (hholds : new.holds = (ph i).holds) (hknows : Knows s.arena new)
    (hopen : ∀ failed, new = .closed failed → (ph i).inSection = false) :
    Advanced p i lockFile ph lockFile s new where
  site := by
    apply h.update h.placed (h.ledger.same rfl (Or.inl hrange)) _ (fun _ _ => Iff.rfl) _ hknows
      (Or.inl rfl)
    · rw [hsection]
      exact h.owner i
    · unfold Phase.hold
      rw [hholds]
  locks := hlocks
  others := fun _ _ _ => Iff.rfl
  failed := by
    rintro hin rc found rfl
    rw [hopen _ rfl] at hin
    simp at hin

omit [DecidableEq P] in
theorem Local.proceed (h : Local s ph) (hlocks : Locks p lockFile s.arena) {found : Found}
    (hpending : (ph i).pending = some found) (hnew : new.pending = some found)
    (hknows : Knows s.arena new) : Advanced p i lockFile ph lockFile s new := by
  obtain ⟨hin, hholds, hrange, -⟩ := pending_spec hpending
  obtain ⟨hin', hholds', hrange', -⟩ := pending_spec hnew
  apply h.progress hlocks (hrange'.trans hrange.symm) (hin'.trans hin.symm)
    (hholds'.trans hholds.symm) hknows
  rintro failed rfl
  simp [Phase.pending] at hnew

omit [DecidableEq P] in
-- An operation between taking the mutex and dropping it.
theorem Local.within (h : Local s ph) (hin : (ph i).inSection = true) (hnew : new.inSection = true)
    (hplaced : WellPlaced a') (hledger : Ledger a'.live (Function.update (fun i => (ph i).range) i new.range))
    (hholders : a'.lockHolders.toNat + (ph i).hold = s.arena.lockHolders.toNat + new.hold)
    (hknows : Knows a' new) (hfile : Locks p lockFile' a')
    (hother : ∀ q, q ≠ p → ∀ fd, lockFile' = some (q, fd) ↔ lockFile = some (q, fd)) :
    Advanced p i lockFile ph lockFile' ⟨a', s.mutex⟩ new where
  site := by
    have hmutex := (h.owner i).mp hin
    apply h.update (show WellPlaced (Site.mk a' s.mutex).arena from hplaced) hledger _
      (fun _ _ => Iff.rfl) hholders hknows
    · exact Or.inr fun j hj => by simp [hmutex, Ne.symm hj]
    · simp [hnew, hmutex]
  locks := hfile
  others := hother
  failed := by
    rintro - rc found rfl
    cases hnew

omit [DecidableEq P] in
-- An operation that drops the mutex.
theorem Local.exit (h : Local s ph) (hin : (ph i).inSection = true) (hnew : new.inSection = false)
    (hplaced : WellPlaced a') (hledger : Ledger a'.live (Function.update (fun i => (ph i).range) i new.range))
    (hholders : a'.lockHolders.toNat + (ph i).hold = s.arena.lockHolders.toNat + new.hold)
    (hfile : Locks p lockFile' a')
    (hother : ∀ q, q ≠ p → ∀ fd, lockFile' = some (q, fd) ↔ lockFile = some (q, fd))
    (hfailed : ∀ rc found, new = .closed (some (rc, found)) →
      a'.live = found.live ∧ a'.lockHolders = found.lockHolders) :
    Advanced p i lockFile ph lockFile' ⟨a', none⟩ new where
  site := by
    have hmutex := (h.owner i).mp hin
    apply h.update (show WellPlaced (Site.mk a' none).arena from hplaced) hledger _ _ hholders
      (knows_outside hnew)
    · exact Or.inr fun j hj => by simp [hmutex, Ne.symm hj]
    · simp [hnew]
    · intro j hj
      simp [hmutex, Ne.symm hj]
  locks := hfile
  others := hother
  failed := fun _ => hfailed

-- The failure exit, from an arena that `begin` may have moved.
theorem Local.failExit (h : Local s ph) (hlocks : Locks p lockFile s.arena)
    {found : Found} (hpending : (ph i).pending = some found) {a : Arena} (ha : WellPlaced a) (hlive : a.live = s.arena.live)
    (hholders : a.lockHolders = s.arena.lockHolders) (hfd : a.lockFd = s.arena.lockFd)
    {rc : AlpError} (hexit : failExit p lockFile a found rc = (lockFile', s', new)) :
    Advanced p i lockFile ph lockFile' s' new := by
  obtain ⟨hin, hholds, hrange, hknown⟩ := pending_spec hpending
  have hfound := hknown _ (h.knows i)
  have hpos : a.lockHolders ≠ 0 := by
    rw [hholders]
    exact h.holders_pos hholds
  have hsame := hlocks.of_same hholders hfd
  unfold AlpSdk.DrpAi.failExit at hexit
  generalize hrelease : a.lockRelease p lockFile = out at hexit
  obtain ⟨a', lf⟩ := out
  cases hexit
  obtain ⟨hcount, hsamelive, hbase, hsize, hfile, hother⟩ := Arena.lockRelease_spec hsame hpos hrelease
  refine h.exit hin rfl (ha.of_same hsamelive hbase hsize) ?_ ?_ hfile hother ?_
  · exact h.ledger.same (hsamelive.trans hlive) (Or.inl hrange.symm)
  · have hsub := sub_one_toNat hpos
    unfold Phase.hold
    rw [if_pos hholds]
    simp only [hcount, ← hholders]
    simp [Phase.holds, hsub]
  · rintro rc' found' heq
    cases heq
    refine ⟨hsamelive.trans (hlive.trans hfound.1.symm), ?_⟩
    rw [hcount, hholders, ← hfound.2]
    exact UInt32.add_sub_cancel _ _

-- A handle that does not hold the lock leaves room for its hold: the holds are counted per slot.
theorem Local.room (hpool : Fintype.card H < 2 ^ 32) (h : Local s ph)
    (hfree : (ph i).holds = false) : s.arena.lockHolders.toNat + 1 < 2 ^ 32 := by
  have hbound : ∀ p : Phase, p.hold ≤ 1 := by
    intro p
    unfold Phase.hold
    split <;> omega
  have htotal := total_update Phase.hold ph i .rangeGiven
  have hle := total_le Phase.hold (Function.update ph i .rangeGiven) hbound
  have hzero : (ph i).hold = 0 := by simp [Phase.hold, hfree]
  have hone : Phase.hold .rangeGiven = 1 := rfl
  rw [h.holders]
  omega

theorem add_one_toNat {n : UInt32} (h : n.toNat + 1 < 2 ^ 32) : (n + 1).toNat = n.toNat + 1 := by
  rw [UInt32.toNat_add, UInt32.toNat_one]
  exact Nat.mod_eq_of_lt h

section Event

variable (h : Local s ph) (hlocks : Locks p lockFile s.arena)
include h hlocks

theorem advance_enter {cfg : Config} {last : Option (AlpError × Found)} (hold : ph i = .closed last)
    (hstep : advance p i lockFile s (.enter cfg) (.closed last) = some (lockFile', s', new)) :
    Advanced p i lockFile ph lockFile' s' new := by
  unfold advance at hstep
  dsimp only at hstep
  cases hcfg : checkConfig cfg with
  | error err =>
      simp only [hcfg] at hstep
      cases hstep
      apply h.progress hlocks <;> simp [hold, Phase.inSection, Knows]
  | ok _ =>
      simp only [hcfg] at hstep
      by_cases hbusy : s.mutex.isSome
      · simp [hbusy] at hstep
      · rw [if_neg hbusy] at hstep
        cases hstep
        have hnone : s.mutex = none := by simpa using hbusy
        refine ⟨?_, hlocks, fun _ _ _ => Iff.rfl, by simp [hold, Phase.inSection]⟩
        apply Local.update h (show WellPlaced (Site.mk s.arena (some i)).arena from h.placed)
        · exact h.ledger.same rfl (Or.inl (by simp [hold, Phase.range]))
        · simp [Phase.inSection]
        · intro j hj
          simp [hnone, Ne.symm hj]
        · simp [hold, Phase.hold, Phase.holds]
        · exact ⟨rfl, rfl⟩
        · exact Or.inl rfl

theorem advance_acquire (hpool : Fintype.card H < 2 ^ 32) {t : LockTry} {found : Found}
    (hold : ph i = .entered found)
    (hstep : advance p i lockFile s (.acquire t) (.entered found) = some (lockFile', s', new)) :
    Advanced p i lockFile ph lockFile' s' new := by
  unfold advance at hstep
  dsimp only at hstep
  have hin : (ph i).inSection = true := by rw [hold]; rfl
  have hknows := h.knows i
  rw [hold] at hknows
  generalize hacquire : s.arena.lockAcquire p lockFile t = out at hstep
  obtain ⟨err, arena, lf⟩ := out
  have hroom := h.room hpool (i := i) (by simp [hold, Phase.holds])
  have hnext := add_one_toNat hroom
  have hnonzero : s.arena.lockHolders + 1 ≠ 0 := by
    intro hzero
    rw [hzero] at hnext
    exact absurd hnext (by simp)
  obtain ⟨hlive, hbase, hsize, hfile, hother, hout⟩ := Arena.lockAcquire_spec hlocks hacquire hnonzero
  rcases hout with ⟨code, rfl, rfl⟩ | ⟨rfl, hcount⟩
  · cases hstep
    refine h.exit hin rfl h.placed ?_ ?_ hfile hother ?_
    · exact h.ledger.same rfl (Or.inl (by simp [hold, Phase.range]))
    · simp [hold, Phase.hold, Phase.holds]
    · rintro rc found' heq
      cases heq
      exact ⟨hknows.1.symm, hknows.2.symm⟩
  · cases hstep
    refine h.within hin rfl (h.placed.of_same hlive hbase hsize) ?_ ?_ ?_ hfile hother
    · exact h.ledger.same hlive (Or.inl (by simp [hold, Phase.range]))
    · simp only [hcount, hnext, hold]
      simp [Phase.hold, Phase.holds]
    · exact ⟨hknows.1.trans hlive.symm, by rw [hknows.2, hcount]⟩

theorem advance_probe {answer : Probe} {found : Found} (hold : ph i = .admitted found)
    (hstep : advance p i lockFile s (.probe answer) (.admitted found) = some (lockFile', s', new)) :
    Advanced p i lockFile ph lockFile' s' new := by
  unfold advance at hstep
  dsimp only at hstep
  have hknows := h.knows i
  rw [hold] at hknows
  cases hmem : memStart answer with
  | error rc =>
      simp only [hmem, Option.some.injEq] at hstep
      exact h.failExit hlocks (by rw [hold]; rfl) h.placed rfl rfl rfl hstep
  | ok area =>
      simp only [hmem] at hstep
      cases hstep
      exact h.proceed hlocks (by rw [hold]; rfl) rfl hknows

theorem advance_allocate {ok : Bool} {found : Found} {area : Area} (hold : ph i = .probed found area)
    (hstep : advance p i lockFile s (.allocate ok) (.probed found area) = some (lockFile', s', new)) :
    Advanced p i lockFile ph lockFile' s' new := by
  unfold advance at hstep
  dsimp only at hstep
  have hknows := h.knows i
  rw [hold] at hknows
  cases ok with
  | true =>
      simp only [if_true] at hstep
      cases hstep
      exact h.proceed hlocks (by rw [hold]; rfl) rfl hknows
  | false =>
      simp only [Bool.false_eq_true, if_false, Option.some.injEq] at hstep
      exact h.failExit hlocks (by rw [hold]; rfl) h.placed rfl rfl rfl hstep

theorem advance_stage {outcome : Status} {found : Found} {area : Area} (hold : ph i = .allocated found area)
    (hstep : advance p i lockFile s (.stage outcome) (.allocated found area) = some (lockFile', s', new)) :
    Advanced p i lockFile ph lockFile' s' new := by
  unfold advance at hstep
  dsimp only at hstep
  have hknows := h.knows i
  rw [hold] at hknows
  cases outcome with
  | error rc =>
      simp only [Option.some.injEq] at hstep
      exact h.failExit hlocks (by rw [hold]; rfl) h.placed rfl rfl rfl hstep
  | ok _ =>
      cases hstep
      exact h.proceed hlocks (by rw [hold]; rfl) rfl hknows

theorem advance_place {found : Found} {area : Area} (hold : ph i = .staged found area)
    (hstep : advance p i lockFile s .place (.staged found area) = some (lockFile', s', new)) :
    Advanced p i lockFile ph lockFile' s' new := by
  unfold advance at hstep
  dsimp only at hstep
  have hknows := h.knows i
  rw [hold] at hknows
  generalize hbegin : s.arena.begin area.base area.size = out at hstep
  obtain ⟨arena, start⟩ := out
  obtain ⟨hplaced, hlive, hholders, hfd, hstart⟩ := Arena.begin_spec h.placed area hbegin
  cases start with
  | none =>
      simp only [Option.some.injEq] at hstep
      exact h.failExit hlocks (by rw [hold]; rfl) hplaced hlive hholders hfd hstep
  | some start =>
      cases hstep
      refine h.within (by rw [hold]; rfl) rfl hplaced ?_ ?_ ?_ (hlocks.of_same hholders hfd)
        fun _ _ _ => Iff.rfl
      · exact h.ledger.same hlive (Or.inl (by simp [hold, Phase.range]))
      · simp [hold, hholders, Phase.hold, Phase.holds]
      · exact ⟨⟨hknows.1.trans hlive.symm, hknows.2.trans hholders.symm⟩, hstart start rfl⟩

theorem advance_load {ok : Bool} {found : Found} {start : UInt64} (hold : ph i = .placed found start)
    (hstep : advance p i lockFile s (.load ok) (.placed found start) = some (lockFile', s', new)) :
    Advanced p i lockFile ph lockFile' s' new := by
  unfold advance at hstep
  dsimp only at hstep
  have hknows := h.knows i
  rw [hold] at hknows
  cases ok with
  | true =>
      simp only [if_true] at hstep
      cases hstep
      exact h.proceed hlocks (by rw [hold]; rfl) rfl hknows
  | false =>
      simp only [Bool.false_eq_true, if_false, Option.some.injEq] at hstep
      exact h.failExit hlocks (by rw [hold]; rfl) h.placed rfl rfl rfl hstep

theorem advance_commit {lastAddress : UInt64} {found : Found} {start : UInt64}
    (hold : ph i = .loaded found start)
    (hstep : advance p i lockFile s (.commit lastAddress) (.loaded found start) =
      some (lockFile', s', new)) : Advanced p i lockFile ph lockFile' s' new := by
  unfold advance at hstep
  dsimp only at hstep
  have hknows := h.knows i
  rw [hold] at hknows
  generalize hcommit : s.arena.commit start lastAddress = out at hstep
  obtain ⟨arena, range⟩ := out
  obtain ⟨hholders, hfd, hplaced, hout⟩ := Arena.commit_spec h.placed hknows.2 lastAddress hcommit
  have hcommitted : ∀ range, Ledger arena.live (Function.update (fun i => (ph i).range) i (some range)) →
      Advanced p i lockFile ph lockFile ⟨arena, s.mutex⟩ (.recorded range) := by
    intro range hledger
    refine h.within (by rw [hold]; rfl) rfl hplaced hledger ?_ trivial (hlocks.of_same hholders hfd)
      fun _ _ _ => Iff.rfl
    simp [hold, hholders, Phase.hold, Phase.holds]
  rcases hout with ⟨rfl, rfl⟩ | ⟨r, rfl, hempty, rfl⟩ | ⟨r, rfl, hnew, hlive⟩
  · simp only [Option.some.injEq] at hstep
    exact h.failExit hlocks (by rw [hold]; rfl) h.placed rfl rfl rfl hstep
  · cases hstep
    apply hcommitted
    exact h.ledger.same rfl (Or.inr ⟨by simp [hold, Phase.range], r, rfl, hempty⟩)
  · cases hstep
    apply hcommitted
    have hfull := hplaced.full
    rw [hlive] at hfull ⊢
    exact h.ledger.add (by simp [hold, Phase.range]) hnew hfull

theorem advance_leave {range : Range} (hold : ph i = .recorded range)
    (hstep : advance p i lockFile s .leave (.recorded range) = some (lockFile', s', new)) :
    Advanced p i lockFile ph lockFile' s' new := by
  cases hstep
  refine h.exit (by rw [hold]; rfl) rfl h.placed ?_ ?_ hlocks (fun _ _ _ => Iff.rfl) (by simp)
  · exact h.ledger.same rfl (Or.inl (by simp [hold, Phase.range]))
  · simp [hold, Phase.hold, Phase.holds]

theorem advance_giveRange {range : Range} (hold : ph i = .tornDown range)
    (hstep : advance p i lockFile s .giveRange (.tornDown range) = some (lockFile', s', new)) :
    Advanced p i lockFile ph lockFile' s' new := by
  unfold advance at hstep
  dsimp only at hstep
  by_cases hbusy : range.start ≠ range.stop ∧ s.mutex.isSome
  · simp [hbusy] at hstep
  · rw [if_neg hbusy] at hstep
    cases hstep
    obtain ⟨hplaced, hholders, hfd, hlive⟩ := Arena.release_spec h.placed range
    refine ⟨?_, hlocks.of_same hholders hfd, fun _ _ _ => Iff.rfl, by simp⟩
    apply Local.update h (show WellPlaced (Site.mk (s.arena.release range) s.mutex).arena from hplaced)
    · exact h.ledger.remove (by simp [hold, Phase.range]) h.placed.full hlive
    · rw [← h.owner i, hold]
      simp [Phase.inSection]
    · exact fun _ _ => Iff.rfl
    · simp [hold, hholders, Phase.hold, Phase.holds]
    · trivial
    · by_cases hempty : range.start = range.stop
      · exact Or.inl (if_pos hempty)
      · refine Or.inr fun j _ hj => hbusy ⟨hempty, ?_⟩
        rw [hj]
        rfl

theorem advance_giveLock (hold : ph i = .rangeGiven)
    (hstep : advance p i lockFile s .giveLock .rangeGiven = some (lockFile', s', new)) :
    Advanced p i lockFile ph lockFile' s' new := by
  unfold advance at hstep
  dsimp only at hstep
  by_cases hbusy : s.mutex.isSome
  · simp [hbusy] at hstep
  · rw [if_neg hbusy] at hstep
    have hnone : s.mutex = none := by simpa using hbusy
    have hpos := h.holders_pos (i := i) (by simp [hold, Phase.holds])
    generalize hrelease : s.arena.lockRelease p lockFile = out at hstep
    obtain ⟨arena, lf⟩ := out
    cases hstep
    obtain ⟨hcount, hlive, hbase, hsize, hfile, hother⟩ := Arena.lockRelease_spec hlocks hpos hrelease
    have hsub := sub_one_toNat hpos
    refine ⟨?_, hfile, hother, by simp⟩
    apply Local.update h (show WellPlaced (Site.mk arena s.mutex).arena from
      h.placed.of_same hlive hbase hsize)
    · exact h.ledger.same hlive (Or.inl (by simp [hold, Phase.range]))
    · simp [Phase.inSection, hnone]
    · exact fun _ _ => Iff.rfl
    · simp only [hcount, hold, Phase.hold, Phase.holds]
      simp [hsub]
    · trivial
    · exact Or.inr fun j _ => by simp [hnone]

end Event

-- Each operation has one phase that it starts from.
theorem advance_spec (hpool : Fintype.card H < 2 ^ 32) (h : Local s ph)
    (hlocks : Locks p lockFile s.arena) {e : Event}
    (hstep : advance p i lockFile s e (ph i) = some (lockFile', s', new)) :
    Advanced p i lockFile ph lockFile' s' new := by
  generalize hold : ph i = old at hstep
  cases e with
  | enter cfg =>
      cases old with
      | closed last => exact advance_enter h hlocks hold hstep
      | _ => simp [advance] at hstep
  | acquire t =>
      cases old with
      | entered found => exact advance_acquire h hlocks hpool hold hstep
      | _ => simp [advance] at hstep
  | probe answer =>
      cases old with
      | admitted found => exact advance_probe h hlocks hold hstep
      | _ => simp [advance] at hstep
  | allocate ok =>
      cases old with
      | probed found area => exact advance_allocate h hlocks hold hstep
      | _ => simp [advance] at hstep
  | stage outcome =>
      cases old with
      | allocated found area => exact advance_stage h hlocks hold hstep
      | _ => simp [advance] at hstep
  | place =>
      cases old with
      | staged found area => exact advance_place h hlocks hold hstep
      | _ => simp [advance] at hstep
  | load ok =>
      cases old with
      | placed found start => exact advance_load h hlocks hold hstep
      | _ => simp [advance] at hstep
  | commit lastAddress =>
      cases old with
      | loaded found start => exact advance_commit h hlocks hold hstep
      | _ => simp [advance] at hstep
  | leave =>
      cases old with
      | recorded range => exact advance_leave h hlocks hold hstep
      | _ => simp [advance] at hstep
  | tearDown =>
      cases old with
      | opened range =>
          cases hstep
          apply h.progress hlocks <;> simp [hold, Phase.inSection, Phase.range, Phase.holds, Knows]
      | _ => simp [advance] at hstep
  | giveRange =>
      cases old with
      | tornDown range => exact advance_giveRange h hlocks hold hstep
      | _ => simp [advance] at hstep
  | giveLock =>
      cases old with
      | rangeGiven => exact advance_giveLock h hlocks hold hstep
      | _ => simp [advance] at hstep

end Step

section Board

variable {P H : Type} [DecidableEq P] [DecidableEq H] [Fintype H]

structure Invariant (w : State P H) : Prop where
  site : ∀ p, Local (w.mem.site p) fun i => w.phase (p, i)
  locks : ∀ p, Locks p w.mem.lockFile (w.mem.site p).arena

theorem initial_placed : WellPlaced Arena.initial :=
  ⟨by decide, by simp [Arena.initial], by simp [Arena.initial], by simp [Arena.initial]⟩

omit [DecidableEq P] [DecidableEq H] in
theorem boot_invariant : Invariant (boot : State P H) where
  site := fun _ => {
    placed := initial_placed
    ledger := ⟨by simp [boot, Phase.range], by simp [boot, Arena.initial],
      by simp [boot, Phase.range]⟩
    owner := by simp [boot, Phase.inSection]
    holders := ((total_eq_zero Phase.hold _).mpr fun _ => rfl).symm
    knows := fun _ => trivial }
  locks := fun _ => ⟨by simp [boot], fun hne => absurd rfl hne⟩

-- A step is an operation of its own process: the others keep their arena, mutex and calls, and
-- what they know of the lock file.
theorem step_advanced (hpool : Fintype.card H < 2 ^ 32) {w w' : State P H} (h : Invariant w)
    {p : P} {i : H} {e : Event} (hstep : drpaiStep ((p, i), e) w = some w') :
    ∃ s' new, w' = ⟨⟨w'.mem.lockFile, Function.update w.mem.site p s'⟩,
        Function.update w.phase (p, i) new⟩ ∧
      Advanced p i w.mem.lockFile (fun i => w.phase (p, i)) w'.mem.lockFile s' new := by
  obtain ⟨m, new, hprog, rfl⟩ := step_eq_some.mp hstep
  simp only [drpaiProg, Option.map_eq_some_iff, Prod.exists, Prod.mk.injEq] at hprog
  obtain ⟨lockFile', s', new', hadvance, rfl, rfl⟩ := hprog
  exact ⟨s', new', rfl, advance_spec hpool (h.site p) (h.locks p) hadvance⟩

theorem step_invariant (hpool : Fintype.card H < 2 ^ 32) {w w' : State P H} (h : Invariant w)
    {a : (P × H) × Event} (hstep : drpaiStep a w = some w') : Invariant w' := by
  obtain ⟨⟨p, i⟩, e⟩ := a
  obtain ⟨s', new, heq, hnew⟩ := step_advanced hpool h hstep
  rw [heq]
  refine ⟨fun q => ?_, fun q => ?_⟩
  · by_cases hq : q = p
    · subst hq
      have hphase : (fun j => Function.update w.phase (q, i) new (q, j)) =
          Function.update (fun j => w.phase (q, j)) i new := by
        funext j
        by_cases hj : j = i
        · subst hj
          rw [Function.update_self, Function.update_self]
        · rw [Function.update_of_ne hj, Function.update_of_ne (by simp [hj])]
      simp only [Function.update_self, hphase]
      exact hnew.site
    · have hphase : (fun j => Function.update w.phase (p, i) new (q, j)) =
          fun j => w.phase (q, j) := by
        funext j
        rw [Function.update_of_ne (by simp [hq])]
      simp only [Function.update_of_ne hq, hphase]
      exact h.site q
  · by_cases hq : q = p
    · subst hq
      simp only [Function.update_self]
      exact hnew.locks
    · simp only [Function.update_of_ne hq]
      refine ⟨fun hzero fd hfile => ?_, fun hne => ?_⟩
      · exact (h.locks q).free hzero fd ((hnew.others q hq fd).mp hfile)
      · exact (hnew.others q hq _).mpr ((h.locks q).held hne)

-- No two open models share memory, the next one is loaded past them all, and the lock file is
-- held by the one process with handles.
structure Safe (w : State P H) : Prop where
  disjoint : ∀ p i j r r', i ≠ j → (w.phase (p, i)).range = some r →
    (w.phase (p, j)).range = some r' → r.start ≠ r.stop → r'.start ≠ r'.stop →
    r.stop ≤ r'.start ∨ r'.stop ≤ r.start
  inside : ∀ p i r, (w.phase (p, i)).range = some r → r.start ≠ r.stop →
    r.start.toNat % 2 ^ 24 = 0 ∧ (w.mem.site p).arena.base ≤ r.start ∧ r.start < r.stop ∧
      r.stop.toNat + 2 ^ 25 ≤ (w.mem.site p).arena.base.toNat + (w.mem.site p).arena.size.toNat
  recorded : ∀ p r, r ∈ (w.mem.site p).arena.live ↔
    r.start ≠ r.stop ∧ ∃ i, (w.phase (p, i)).range = some r
  handed : ∀ p i found start, w.phase (p, i) = .placed found start → ∀ j r, j ≠ i →
    (w.phase (p, j)).range = some r → r.start ≠ r.stop → r.stop ≤ start
  holders : ∀ p, (w.mem.site p).arena.lockHolders.toNat =
    (Finset.univ.filter fun i => (w.phase (p, i)).holds = true).card
  file : ∀ p, (∃ fd, w.mem.lockFile = some (p, fd)) ↔ ∃ i, (w.phase (p, i)).holds = true
  exclusive : ∀ p q i j, (w.phase (p, i)).holds = true → (w.phase (q, j)).holds = true → p = q

theorem pairwise_apart {a : Arena} (h : WellPlaced a) {r r' : Range} (hr : r ∈ a.live)
    (hr' : r' ∈ a.live) (hne : r ≠ r') : r.stop ≤ r'.start ∨ r'.stop ≤ r.start := by
  have : Std.Symm fun x y : Range => x.stop ≤ y.start ∨ y.stop ≤ x.start := ⟨fun _ _ => Or.symm⟩
  have hapart : a.live.Pairwise fun x y => x.stop ≤ y.start ∨ y.stop ≤ x.start :=
    h.sorted.imp fun hle => Or.inl (UInt64.le_iff_toNat_le.mpr hle)
  exact hapart.forall hr hr' hne

omit [DecidableEq P] [DecidableEq H] in
theorem Invariant.safe {w : State P H} (h : Invariant w) : Safe w := by
  have hfile : ∀ p i, (w.phase (p, i)).holds = true → ∃ fd, w.mem.lockFile = some (p, fd) := by
    intro p i hholds
    exact ⟨_, (h.locks p).held ((h.site p).holders_pos (i := i) hholds)⟩
  refine ⟨?_, ?_, ?_, ?_, ?_, ?_, ?_⟩
  · intro p i j r r' hij hr hr' hfull hfull'
    have hledger := (h.site p).ledger
    have hne : r ≠ r' := by
      rintro rfl
      exact hfull (hledger.distinct i j r hij hr hr')
    exact pairwise_apart (h.site p).placed (hledger.recorded i r hr hfull)
      (hledger.recorded j r' hr' hfull') hne
  · intro p i r hr hfull
    have hmem := (h.site p).ledger.recorded i r hr hfull
    obtain ⟨hbase, hlt, hend⟩ := (h.site p).placed.inside r hmem
    exact ⟨(h.site p).placed.aligned r hmem, UInt64.le_iff_toNat_le.mpr hbase,
      UInt64.lt_iff_toNat_lt.mpr hlt, hend⟩
  · intro p r
    constructor
    · exact fun hmem => ⟨(h.site p).placed.full r hmem, (h.site p).ledger.owned r hmem⟩
    · rintro ⟨hfull, i, hr⟩
      exact (h.site p).ledger.recorded i r hr hfull
  · intro p i found start hphase j r _ hr hfull
    have hknows := (h.site p).knows i
    simp only [hphase, Knows] at hknows
    have hmem := (h.site p).ledger.recorded j r hr hfull
    exact UInt64.le_iff_toNat_le.mpr (hknows.2.clear r hmem)
  · intro p
    rw [(h.site p).holders, Finset.card_filter]
    rfl
  · intro p
    constructor
    · rintro ⟨fd, hfd⟩
      by_contra hnone
      have hzero : (w.mem.site p).arena.lockHolders.toNat = 0 := by
        rw [(h.site p).holders, total_eq_zero]
        intro i
        have hi : (w.phase (p, i)).holds = false := by
          by_contra hi
          exact hnone ⟨i, by simpa using hi⟩
        simp [Phase.hold, hi]
      exact (h.locks p).free (UInt32.toNat_inj.mp hzero) fd hfd
    · rintro ⟨i, hholds⟩
      exact hfile p i hholds
  · intro p q i j hp hq
    obtain ⟨fd, hfd⟩ := hfile p i hp
    obtain ⟨fd', hfd'⟩ := hfile q j hq
    rw [hfd] at hfd'
    simp only [Option.some.injEq, Prod.mk.injEq] at hfd'
    exact hfd'.1

-- In every state the processes and threads of a board can reach, and at every open that fails.
theorem arena_safe (hpool : Fintype.card H < 2 ^ 32) {w : State P H}
    (hrun : Run drpaiStep (fun _ _ => True) boot w) :
    Safe w ∧
      (∀ p i e w', drpaiStep ((p, i), e) w = some w' → (w.phase (p, i)).inSection = true →
        ∀ rc found, w'.phase (p, i) = .closed (some (rc, found)) →
          (w'.mem.site p).arena.live = found.live ∧
            (w'.mem.site p).arena.lockHolders = found.lockHolders) ∧
      ∀ t cfg w', drpaiStep (t, .enter cfg) w = some w' → checkConfig cfg ≠ .ok () → w' = w := by
  have hinv : Invariant w := run_invariant
    (fun a s s' _ hstep hs => step_invariant hpool hs hstep) hrun boot_invariant
  refine ⟨hinv.safe, ?_, ?_⟩
  · intro p i e w' hstep hin rc found hclosed
    obtain ⟨s', new, heq, hnew⟩ := step_advanced hpool hinv hstep
    rw [heq] at hclosed ⊢
    simp only [Function.update_self] at hclosed ⊢
    exact hnew.failed hin rc found hclosed
  · rintro ⟨p, i⟩ cfg w' hstep hrefused
    obtain ⟨m, new, hprog, rfl⟩ := step_eq_some.mp hstep
    simp only [drpaiProg, Option.map_eq_some_iff, Prod.exists, Prod.mk.injEq] at hprog
    obtain ⟨lockFile', s', new', hadvance, rfl, rfl⟩ := hprog
    generalize hold : w.phase (p, i) = old at hadvance
    cases old with
    | closed last =>
        cases hcfg : checkConfig cfg with
        | error err =>
            simp only [advance, hcfg] at hadvance
            cases hadvance
            rw [← hold]
            simp only [Function.update_eq_self]
        | ok _ => exact absurd hcfg hrefused
    | _ => simp [advance] at hadvance

-- A model of 8 MiB is open and a second handle's model is being loaded; another process is
-- refused.
theorem arena_safe_two :
    let load : List Event := [.enter ⟨some (), 1024, 0⟩, .acquire ⟨.ok 5, none⟩,
      .probe ⟨none, none, 0xd0000000, 0x20000000, by decide⟩, .allocate true, .stage (.ok ()), .place]
    let actions : List ((Bool × Fin 4) × Event) :=
      (load ++ [Event.load true, .commit 0xd0800000, .leave]).map (Prod.mk (false, 0)) ++
        ((load.take 2).map (Prod.mk (true, 0)) ++ load.map (Prod.mk (false, 1)))
    ∃ w, exec drpaiStep actions boot = some w ∧
      (w.mem.site false).arena.live = [⟨0xd0000000, 0xd0800000⟩] ∧
      (w.mem.site false).arena.lockHolders = 2 ∧ w.mem.lockFile = some (false, 5) ∧ Safe w := by
  intro load actions
  have hsafe : ∀ w, exec drpaiStep actions boot = some w → Safe w :=
    fun w hw => (arena_safe (by decide) (run_of_exec actions hw (along_true _ _))).1
  exact ⟨_, rfl, rfl, rfl, rfl, hsafe _ rfl⟩

end Board

end AlpSdk.DrpAi
