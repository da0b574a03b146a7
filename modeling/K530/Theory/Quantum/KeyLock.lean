import K530.Lib.Run
import K530.Quantum.KeyLock

/-!
# What Key Lock Means

The host should see the keys that are down and the keys that are locked. A key is locked by
its press after an odd number of presses of `KC_LOCK`, and unlocked by its next one.

The words of the locked keys are read back through the place of a keycode in them, which no
other keycode has. Then each event does to the keys of the host what it does to the two sets.
A press that locks goes on, and one that unlocks does not, since the host has the key already.
A release goes on unless the key is locked, when the host should keep it.

## Main definitions

* `KeyLockRun.Means`: The keys that should be locked are the ones that are, and the host sees
  them and the ones that are down.

## Theorems

* `KeyLock.keyStateOf_set`, `KeyLock.keyStateOf_unset`: One key is locked or unlocked.
* `KeyLockRun.key_lock_meaning`: So it holds in every run.
-/

namespace K530

open StepRun

variable (code : Byte)

@[simp] theorem standard_toNat : (standard code).toNat = code.toNat := by
  have hlt : code.toNat < 256 := code.isLt
  rw [standard, BitVec.toNat_setWidth]
  omega

theorem standard_eq_iff (code other : Byte) : standard code = standard other ↔ code = other := by
  rw [← BitVec.toNat_inj, ← BitVec.toNat_inj (x := code), standard_toNat, standard_toNat]

namespace KeyLock

/-! ### The place of a keycode -/

theorem codeIndex_lt : codeIndex (standard code) < 64 := by
  have hlt : code.toNat < 256 := code.isLt
  have hcode := standard_toNat code
  unfold codeIndex
  split_ifs <;> bv_omega

theorem keyArray_val (code : Keycode) :
    (keyArray code).val =
      if code < 0x40 then 0 else if code < 0x80 then 1 else if code < 0xC0 then 2 else 3 := by
  unfold keyArray
  split_ifs <;> rfl

theorem place_eq :
    (keyArray (standard code)).val * 64 + codeIndex (standard code) = code.toNat := by
  have hlt : code.toNat < 256 := code.isLt
  have hcode := standard_toNat code
  rw [keyArray_val]
  unfold codeIndex
  split_ifs <;> bv_omega

theorem place_eq_iff (code other : Byte) :
    (keyArray (standard code) = keyArray (standard other) ∧
      codeIndex (standard code) = codeIndex (standard other)) ↔ code = other := by
  constructor
  · intro h
    have hcode := place_eq code
    -- The two places give the same number, which is the code.
    rw [h.1, h.2, place_eq other] at hcode
    exact BitVec.eq_of_toNat_eq hcode.symm
  · intro h
    rw [h]
    exact ⟨rfl, rfl⟩

theorem keyStateOf_init : init.keyStateOf (standard code) = false := by
  unfold keyStateOf
  rw [BitWords.has_eq _ _ _ (codeIndex_lt code)]
  exact BitVec.getLsbD_zero

theorem keyStateOf_set (code other : Byte) (s : KeyLock) :
    (s.setKeyState (standard code)).keyStateOf (standard other) =
      (decide (code = other) || s.keyStateOf (standard other)) := by
  unfold keyStateOf setKeyState
  rw [BitWords.has_put _ _ _ _ _ (codeIndex_lt code) (codeIndex_lt other)]
  simp only [place_eq_iff]

theorem keyStateOf_unset (code other : Byte) (s : KeyLock) :
    (s.unsetKeyState (standard code)).keyStateOf (standard other) =
      (!decide (code = other) && s.keyStateOf (standard other)) := by
  unfold keyStateOf unsetKeyState
  rw [BitWords.has_take _ _ _ _ _ (codeIndex_lt code) (codeIndex_lt other)]
  simp only [place_eq_iff]

/-! ### One event -/

theorem isStandardKeycode_standard : isStandardKeycode (standard code) := by
  have hlt : code.toNat < 256 := code.isLt
  have hcode := standard_toNat code
  unfold isStandardKeycode
  rw [decide_eq_true_eq]
  bv_omega

theorem standard_ne_lock : (standard code == kcLock) = false := by
  have hlt : code.toNat < 256 := code.isLt
  have hcode := standard_toNat code
  refine beq_false_of_ne (fun hc => ?_)
  rw [hc] at hcode
  have hlock : kcLock.toNat = 0x5D2B := rfl
  omega

theorem translateKeycode_standard : translateKeycode (standard code) = standard code := by
  have hlt : code.toNat < 256 := code.isLt
  have hcode := standard_toNat code
  unfold translateKeycode qkOneShotMod
  rw [if_neg]
  intro hc
  have hbelow := hc.1
  bv_omega

theorem processKeyLock_press (s : KeyLock) :
    s.processKeyLock (standard code) true =
      if s.watching then
        (true, standard code, { s with watching := false }.setKeyState (standard code))
      else if s.keyStateOf (standard code) then
        (false, standard code, s.unsetKeyState (standard code))
      else (true, standard code, s) := by
  simp only [processKeyLock, translateKeycode_standard, isStandardKeycode_standard,
    standard_ne_lock, Bool.or_false, Bool.not_true, Bool.false_eq_true, if_false, if_true]

theorem processKeyLock_release (s : KeyLock) :
    s.processKeyLock (standard code) false =
      (!s.keyStateOf (standard code), standard code, s) := by
  simp only [processKeyLock, translateKeycode_standard, isStandardKeycode_standard,
    Bool.true_and, Bool.false_eq_true, if_false]

theorem processKeyLock_pressLock (s : KeyLock) :
    s.processKeyLock kcLock true = (false, kcLock, { s with watching := !s.watching }) := rfl

theorem processKeyLock_releaseLock (s : KeyLock) :
    s.processKeyLock kcLock false = (true, kcLock, s) := rfl

end KeyLock

namespace KeyLockRun

open KeyLock

/-! ### One input -/

/-- The keys that should be locked are the ones that are, and the host sees them and the ones
    that are down. -/
structure Means (r : KeyLockRun) (a : LockedKeys) : Prop where
  down_eq : r.down = a.down
  watching_eq : r.lock.watching = a.odd
  locked_iff (code : Byte) : r.lock.keyStateOf (standard code) = true ↔ standard code ∈ a.locked
  standard_locked : ∀ keycode ∈ a.locked, ∃ code, keycode = standard code
  standard_down : ∀ keycode ∈ a.down, ∃ code, keycode = standard code
  host_eq : r.host = a.down ∪ a.locked

theorem start_means : start.Means .start where
  down_eq := rfl
  watching_eq := rfl
  locked_iff code := by
    have hnone : standard code ∉ LockedKeys.start.locked := Finset.notMem_empty _
    rw [start, keyStateOf_init]
    simp only [Bool.false_eq_true, hnone]
  standard_locked keycode h := absurd h (Finset.notMem_empty keycode)
  standard_down keycode h := absurd h (Finset.notMem_empty keycode)
  host_eq := rfl

theorem standard_insert {keys : Finset Keycode} (code : Byte)
    (h : ∀ keycode ∈ keys, ∃ code, keycode = standard code) :
    ∀ keycode ∈ insert (standard code) keys, ∃ code, keycode = standard code := by
  intro keycode hmem
  cases Finset.mem_insert.mp hmem with
  | inl heq => exact ⟨code, heq⟩
  | inr hold => exact h keycode hold

theorem standard_erase {keys : Finset Keycode} (code : Byte)
    (h : ∀ keycode ∈ keys, ∃ code, keycode = standard code) :
    ∀ keycode ∈ keys.erase (standard code), ∃ code, keycode = standard code := by
  intro keycode hmem
  exact h keycode (Finset.mem_of_mem_erase hmem)

variable (r : KeyLockRun) (a : LockedKeys)

theorem press_means (code : Byte) (h : r.Means a) :
    (r.step (.press code)).Means (a.step (.press code)) := by
  simp only [step, LockedKeys.step, h.down_eq]
  by_cases hdown : standard code ∈ a.down
  · simp only [if_pos hdown]
    exact h
  -- The key is down from now on, whatever becomes of the event.
  have hkeys := standard_insert code h.standard_down
  simp only [if_neg hdown, event, processKeyLock_press, h.watching_eq]
  cases hodd : a.odd with
  | true =>
    -- the press locks the key, and goes on
    simp only [if_true]
    refine ⟨rfl, rfl, ?_, standard_insert code h.standard_locked, hkeys, ?_⟩
    · intro other
      rw [keyStateOf_set, Bool.or_eq_true, decide_eq_true_eq, Finset.mem_insert,
        standard_eq_iff, eq_comm (a := code)]
      exact or_congr Iff.rfl (h.locked_iff other)
    · dsimp only
      rw [h.host_eq, Finset.insert_union_distrib]
  | false =>
    simp only [Bool.false_eq_true, if_false]
    by_cases hlocked : standard code ∈ a.locked
    · -- the press unlocks the key, and the host has it already
      rw [if_pos ((h.locked_iff code).mpr hlocked)]
      refine ⟨rfl, h.watching_eq.trans hodd, ?_, standard_erase code h.standard_locked,
        hkeys, ?_⟩
      · intro other
        rw [keyStateOf_unset, Bool.and_eq_true, Bool.not_eq_true', decide_eq_false_iff_not,
          Finset.mem_erase, ne_eq, standard_eq_iff, eq_comm (a := code), h.locked_iff]
      · simp only [Bool.false_eq_true, if_false]
        rw [h.host_eq, Finset.insert_union_comm, Finset.insert_erase hlocked]
    · -- the key is neither locked nor meant to be
      rw [if_neg (fun hc => hlocked ((h.locked_iff code).mp hc)),
        Finset.erase_eq_of_notMem hlocked]
      refine ⟨rfl, h.watching_eq.trans hodd, h.locked_iff, h.standard_locked, hkeys, ?_⟩
      simp only [if_true]
      rw [h.host_eq, Finset.insert_union]

theorem release_means (code : Byte) (h : r.Means a) :
    (r.step (.release code)).Means (a.step (.release code)) := by
  simp only [step, LockedKeys.step, h.down_eq]
  by_cases hdown : standard code ∈ a.down
  · have hkeys := standard_erase code h.standard_down
    rw [if_neg (not_not_intro hdown)]
    simp only [event, processKeyLock_release]
    refine ⟨rfl, h.watching_eq, h.locked_iff, h.standard_locked, hkeys, ?_⟩
    by_cases hlocked : standard code ∈ a.locked
    · -- the release of a locked key does not go on, and the host keeps it
      -- It is among the locked ones when it is no longer among those that are down.
      have hsame : a.down.erase (standard code) ∪ a.locked = a.down ∪ a.locked := by
        rw [← Finset.insert_eq_of_mem hlocked, ← Finset.insert_union_comm,
          Finset.insert_erase hdown, Finset.insert_eq_of_mem hlocked]
      rw [(h.locked_iff code).mpr hlocked]
      simp only [Bool.not_true, Bool.false_eq_true, if_false]
      rw [h.host_eq, hsame]
    · rw [Bool.eq_false_iff.mpr (fun hc => hlocked ((h.locked_iff code).mp hc))]
      simp only [Bool.not_false, if_true, Bool.false_eq_true, if_false]
      rw [h.host_eq, Finset.erase_union_distrib, Finset.erase_eq_of_notMem hlocked]
  · -- nothing is released
    rw [if_pos hdown, Finset.erase_eq_of_notMem hdown]
    exact h

theorem kcLock_notMem {keys : Finset Keycode}
    (h : ∀ keycode ∈ keys, ∃ code, keycode = standard code) : kcLock ∉ keys := by
  intro hmem
  obtain ⟨code, hcode⟩ := h kcLock hmem
  have hne := standard_ne_lock code
  rw [← hcode, beq_self_eq_true] at hne
  exact Bool.false_ne_true hne.symm

theorem lock_means (h : r.Means a) : (r.step .pressLock).Means (a.step .pressLock) := by
  simp only [step, event, processKeyLock_pressLock, Bool.false_eq_true, if_false]
  exact ⟨h.down_eq, congrArg not h.watching_eq, h.locked_iff, h.standard_locked,
    h.standard_down, h.host_eq⟩

theorem unlock_means (h : r.Means a) : (r.step .releaseLock).Means (a.step .releaseLock) := by
  simp only [step, event, processKeyLock_releaseLock, Bool.false_eq_true, if_false, if_true]
  refine ⟨h.down_eq, h.watching_eq, h.locked_iff, h.standard_locked, h.standard_down, ?_⟩
  -- the host is told that `KC_LOCK` is up, which it did not see as down
  have hnone : kcLock ∉ r.host := by
    rw [h.host_eq, Finset.mem_union]
    exact not_or_intro (kcLock_notMem h.standard_down) (kcLock_notMem h.standard_locked)
  exact (Finset.erase_eq_of_notMem hnone).trans h.host_eq

theorem step_means (input : KeyLockInput) (h : r.Means a) :
    (r.step input).Means (a.step input) := by
  cases input with
  | press code => exact press_means r a code h
  | release code => exact release_means r a code h
  | pressLock => exact lock_means r a h
  | releaseLock => exact unlock_means r a h

/-! ### Every run -/

/-- After every run of presses and releases of standard keys and of `KC_LOCK`, the host sees
    the keys that are down and the keys that should be locked. -/
theorem key_lock_meaning (inputs : List KeyLockInput) :
    (run step start inputs).host =
      (run step start inputs).down ∪ (run LockedKeys.step .start inputs).locked := by
  have hmeans := run_related step LockedKeys.step Means step_means inputs start .start start_means
  rw [hmeans.host_eq, hmeans.down_eq]

end KeyLockRun

end K530
