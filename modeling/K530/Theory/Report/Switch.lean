import K530.Quantum.Protocol
import K530.Theory.Report.Formats

/-!
# Phantom Keys

The two formats share their bytes, and a change of format leaves the bytes as
they are. Whatever the old format showed the new one reads as something else,
and the keys that are released afterwards are taken out in the new format only.
So a change of format is harmless exactly when there is nothing in the bytes.

An NKRO keycode sees to that. It clears the keyboard before the change, and
again after it. But the format it clears the first time is not the one that was
in force: by then the switch has been read back from the EEPROM, and if the host
had turned NKRO on while the EEPROM has it off, both times only the six places
are cleared. `SET_PROTOCOL` does not clear anything.

`Tidy` is the invariant: the format in force shows no key that is not down, and
the bytes it does not show are zero. It may be broken between the two ends of an
NKRO keycode, as long as it holds again after the last clear.

## Main definitions

* `Tidy`: What the report may hold.

## Theorems

* `no_phantom_key`: Nothing is left, if every request and every call is `Kept`.
* `no_phantom_key_broken`: A key is left, if the format changes while it is held.
-/

namespace K530

namespace Report

/-! ### What the report may hold -/

/-- The bytes that the six-key format does not show are zero. -/
def RestZero (r : Report) : Prop :=
  ∀ i : Fin 30, i.val = 0 ∨ 7 ≤ i.val → r.bits[i] = 0

instance (r : Report) : Decidable r.RestZero :=
  inferInstanceAs (Decidable (∀ i : Fin 30, i.val = 0 ∨ 7 ≤ i.val → r.bits[i] = 0))

theorem first_byte : 0 < 30 := by decide

/-- The format in force shows no key that is not down, and nothing hides in the
    bytes it does not show. -/
structure Tidy (nkro : Bool) (r : Report) (down : Finset Byte) : Prop where
  keys : ∀ key, isKeyPressed nkro r key = true → key ∈ down
  noKey : nkro = true → (getElem r.bits 0 first_byte).getLsbD 0 = false
  rest : nkro = false → r.RestZero

theorem Tidy.zero {nkro : Bool} {r : Report} {down : Finset Byte} (h : Tidy nkro r down)
    (hnone : r.hasAnykey nkro = 0) : ∀ i : Fin 30, r.bits[i] = 0 := by
  intro i
  cases nkro with
  | true => exact (hasAnykey_bitmap r).mp hnone _ (Vector.getElem_mem i.isLt)
  | false =>
    by_cases hi : i.val = 0 ∨ 7 ≤ i.val
    · exact h.rest rfl i hi
    · -- one of the six places
      refine (hasAnykey_six r).mp hnone _ ((mem_keys r _).mpr ⟨⟨i.val - 1, by omega⟩, ?_⟩)
      have hplace : i.val - 1 + 1 = i.val := by omega
      simp only [hplace, Fin.getElem_fin]

theorem isKeyPressed_of_zero (nkro : Bool) (r : Report) (h : ∀ i : Fin 30, r.bits[i] = 0)
    (key : Byte) : isKeyPressed nkro r key = false := by
  rw [Bool.eq_false_iff, ne_eq]
  cases nkro with
  | false =>
    rw [isKeyPressed_false, mem_keys]
    rintro ⟨hkey, i, hi⟩
    exact hkey (hi.symm.trans (h ⟨i.val + 1, by omega⟩))
  | true =>
    rw [isKeyPressed_true]
    rintro ⟨_, hfits, hbit⟩
    have hzero : r.bits[key.toNat / 8] = 0 := h ⟨key.toNat / 8, hfits⟩
    rw [hzero] at hbit
    exact Bool.false_ne_true (BitVec.getLsbD_zero.symm.trans hbit)

theorem tidy_of_zero (nkro : Bool) (r : Report) (h : ∀ i : Fin 30, r.bits[i] = 0)
    (down : Finset Byte) : Tidy nkro r down where
  keys := by
    intro key hkey
    rw [isKeyPressed_of_zero nkro r h key] at hkey
    exact absurd hkey Bool.false_ne_true
  noKey := by
    intro _
    have hzero : r.bits[0] = 0 := h 0
    rw [hzero]
    exact BitVec.getLsbD_zero
  rest := fun _ i _ => h i

theorem hasAnykey_of_zero (nkro : Bool) (r : Report) (h : ∀ i : Fin 30, r.bits[i] = 0) :
    r.hasAnykey nkro = 0 := by
  refine hasAnykey_eq_zero nkro r (isKeyPressed_of_zero nkro r h) (fun hnkro => ?_)
  exact (tidy_of_zero nkro r h ∅).noKey hnkro

theorem rest_addKeyByte {r : Report} (h : r.RestZero) (key : Byte) :
    (r.addKeyByte key).RestZero := by
  intro i hi
  unfold addKeyByte
  split
  · exact h i hi
  · split
    · rename_i k _
      simp only [setKey, Fin.getElem_fin]
      rw [Vector.getElem_set_ne _ _ (by omega)]
      exact h i hi
    · exact h i hi

theorem rest_delKeyByte {r : Report} (h : r.RestZero) (key : Byte) :
    (r.delKeyByte key).RestZero := by
  intro i hi
  simp only [delKeyByte, Fin.getElem_fin, Vector.getElem_mapIdx]
  rw [if_neg (by omega)]
  exact h i hi

theorem rest_clear {r : Report} (h : r.RestZero) (nkro : Bool) :
    ∀ i : Fin 30, (r.clearKeysFromReport nkro).bits[i] = 0 := by
  intro i
  cases nkro with
  | true => simp [clearKeysFromReport]
  | false =>
    simp only [clearKeysFromReport, Bool.false_eq_true, if_false, Fin.getElem_fin,
      Vector.getElem_mapIdx]
    split
    · rfl
    · exact h i (by omega)

namespace Tidy

variable {nkro : Bool} {r : Report} {down : Finset Byte}

theorem congr {r' : Report} (h : Tidy nkro r down) (hbits : r'.bits = r.bits) :
    Tidy nkro r' down := by
  rcases r with ⟨mods, bits⟩
  rcases r' with ⟨mods', bits'⟩
  obtain rfl : bits' = bits := hbits
  exact ⟨h.keys, h.noKey, h.rest⟩

theorem add (h : Tidy nkro r down) (key : Byte) (hkey : key ≠ 0) (hfits : key.toNat / 8 < 30) :
    Tidy nkro (r.addKeyToReport nkro key) (insert key down) where
  keys := by
    intro j hj
    rw [isKeyPressed_add nkro r key j hkey hfits] at hj
    rw [Finset.mem_insert]
    rcases hj with hj | hj
    · exact Or.inr (h.keys j hj)
    · exact Or.inl hj.2
  noKey := by
    rintro rfl
    exact (noKey_addKeyBit r key hkey).trans (h.noKey rfl)
  rest := by
    rintro rfl
    exact rest_addKeyByte (h.rest rfl) key

theorem del (h : Tidy nkro r down) (key : Byte) (hfits : key.toNat / 8 < 30) :
    Tidy nkro (r.delKeyFromReport nkro key) (down.erase key) where
  keys := by
    intro j hj
    rw [isKeyPressed_del nkro r key j hfits] at hj
    exact Finset.mem_erase.mpr ⟨hj.2, h.keys j hj.1⟩
  noKey := by
    rintro rfl
    exact noKey_delKeyBit r key (h.noKey rfl)
  rest := by
    rintro rfl
    exact rest_delKeyByte (h.rest rfl) key

theorem cleared (r : Report) (h : nkro = false → r.RestZero) (down : Finset Byte) :
    Tidy nkro (r.clearKeysFromReport nkro) down := by
  cases nkro with
  | false => exact tidy_of_zero false _ (rest_clear (h rfl) false) down
  | true =>
    refine tidy_of_zero true _ (fun i => ?_) down
    simp [clearKeysFromReport]

theorem switch (h : Tidy nkro r down) (hnone : r.hasAnykey nkro = 0) (nkro' : Bool) :
    Tidy nkro' r down :=
  tidy_of_zero nkro' r (h.zero hnone) down

end Tidy

end Report

namespace Switching

/-! ### The calls of an event -/

/-! ### The keys that are down -/

def downAfter (down : Finset Byte) : List Call → Finset Byte
  | [] => down
  | .addKey code :: calls => downAfter (insert code down) calls
  | .delKey code :: calls => downAfter (down.erase code) calls
  | .checkKey _ :: calls | .send :: calls | .register _ :: calls | .unregister _ :: calls
  | .reload _ :: calls | .clearBefore _ :: calls | .change _ :: calls | .save :: calls
  | .clearAfter :: calls => downAfter down calls

theorem downAfter_append (calls calls' : List Call) :
    ∀ down, downAfter down (calls ++ calls') = downAfter (downAfter down calls) calls' := by
  induction calls with
  | nil => intro down; rfl
  | cons c calls ih =>
    intro down
    cases c <;> simp only [List.cons_append, downAfter, ih]

theorem downAfter_mono (calls : List Call) :
    ∀ down down', down ⊆ down' → downAfter down calls ⊆ downAfter down' calls := by
  induction calls with
  | nil =>
    intro down down' h
    exact h
  | cons c calls ih =>
    intro down down' h
    cases c with
    | addKey code => exact ih _ _ (Finset.insert_subset_insert code h)
    | delKey code => exact ih _ _ (Finset.erase_subset_erase code h)
    | _ => exact ih _ _ h

/-! ### What may come when -/

/-- An NKRO keycode has reloaded the switch and not yet cleared the keyboard for
    the last time. -/
def midKeycode : List Call → Bool
  | .clearBefore _ :: _ | .change _ :: _ | .save :: _ | .clearAfter :: _ => true
  | _ => false

/-- A request that changes the format comes when the report holds no key, or
    while an NKRO keycode is being handled. And the last clear of the keycode
    finds nothing in the bytes that it does not reach. -/
def Kept (s : Switching) : SwitchInput → Prop
  | .setProtocol value =>
    (s.setProtocol value).usb.nkro = s.usb.nkro ∨ s.usb.report.hasAnykey s.usb.nkro = 0 ∨
      midKeycode s.calls = true
  | .call => s.calls.head? = some .clearAfter → s.usb.nkro = false → s.usb.report.RestZero
  | .press _ | .release _ | .nkro _ => True

instance : DecidableRel Kept
  | _, .setProtocol _ => inferInstanceAs (Decidable (_ ∨ _ ∨ _))
  | s, .call =>
    inferInstanceAs (Decidable
      (s.calls.head? = some .clearAfter → s.usb.nkro = false → s.usb.report.RestZero))
  | _, .press _ | _, .release _ | _, .nkro _ => inferInstanceAs (Decidable True)

/-- With no key held and no call left, the report holds no key in either
    format. -/
def NoPhantom (s : Switching) : Prop :=
  s.calls = [] → s.held = ∅ → ∀ nkro, s.usb.report.hasAnykey nkro = 0 ∧
    ∀ key, s.usb.report.isKeyPressed nkro key = false

def Meant : Call → Prop
  | .checkKey code | .addKey code | .delKey code => isKey code = true
  | .register code | .unregister code => isKey code = false
  | _ => True

def Sound (s : Switching) : Prop :=
  (∀ c ∈ s.calls, Meant c) ∧ ∃ down, downAfter down s.calls ⊆ s.held ∧
    (midKeycode s.calls = false → s.usb.report.Tidy s.usb.nkro down)

theorem Sound.noPhantom {s : Switching} (h : s.Sound) : s.NoPhantom := by
  rcases h with ⟨-, down, hdown, htidy⟩
  intro hcalls hheld nkro
  rw [hcalls] at hdown htidy
  rw [hheld] at hdown
  have hnone : down = ∅ := Finset.subset_empty.mp hdown
  subst hnone
  have htidy := htidy rfl
  have hzero := htidy.zero (Report.hasAnykey_eq_zero _ _ (fun key => ?_) htidy.noKey)
  · exact ⟨Report.hasAnykey_of_zero nkro _ hzero, Report.isKeyPressed_of_zero nkro _ hzero⟩
  · rw [Bool.eq_false_iff]
    exact fun hkey => absurd (htidy.keys key hkey) (Finset.notMem_empty key)

/-! ### What a call does -/

theorem midKeycode_append (calls calls' : List Call) (h : calls ≠ []) :
    midKeycode (calls ++ calls') = midKeycode calls := by
  cases calls with
  | nil => exact absurd rfl h
  | cons c calls => cases c <;> rfl

theorem midKeycode_last (s : Switching) (c : Call) (calls : List Call)
    (hc : midKeycode [c] = false) : midKeycode (s.calls ++ c :: calls) = midKeycode s.calls := by
  cases hcalls : s.calls with
  | nil =>
    refine Eq.trans ?_ hc
    cases c <;> rfl
  | cons d rest => exact midKeycode_append (d :: rest) _ (List.cons_ne_nil d rest)

theorem send_bits (u : Usb) : u.sendKeyboardReport.report.bits = u.report.bits := by
  unfold Usb.sendKeyboardReport
  dsimp only
  split <;> rfl

theorem send_nkro (u : Usb) : u.sendKeyboardReport.nkro = u.nkro := by
  unfold Usb.sendKeyboardReport
  dsimp only
  split <;> rfl

theorem clear_bits (u : Usb) :
    u.clearKeyboard.report.bits = (u.report.clearKeysFromReport u.nkro).bits := by
  unfold Usb.clearKeyboard Usb.clearKeyboardButModsAndKeys
  rw [send_bits]
  rfl

theorem clear_nkro (u : Usb) : u.clearKeyboard.nkro = u.nkro := by
  unfold Usb.clearKeyboard Usb.clearKeyboardButModsAndKeys
  rw [send_nkro]
  rfl

theorem register_bits (u : Usb) (code : Byte) (h : isKey code = false) :
    (u.registerCode code).report.bits = u.report.bits ∧ (u.registerCode code).nkro = u.nkro := by
  unfold Usb.registerCode
  rw [h, if_neg Bool.false_ne_true]
  split
  · exact ⟨rfl, rfl⟩
  · split
    · exact ⟨send_bits _, send_nkro _⟩
    · split
      · exact ⟨rfl, rfl⟩
      · split <;> exact ⟨rfl, rfl⟩

theorem unregister_bits (u : Usb) (code : Byte) (h : isKey code = false) :
    (u.unregisterCode code).report.bits = u.report.bits ∧
      (u.unregisterCode code).nkro = u.nkro := by
  unfold Usb.unregisterCode
  rw [h, if_neg Bool.false_ne_true]
  split
  · exact ⟨rfl, rfl⟩
  · split
    · exact ⟨send_bits _, send_nkro _⟩
    · split
      · exact ⟨rfl, rfl⟩
      · split <;> exact ⟨rfl, rfl⟩

theorem sound_of {s : Switching} {down : Finset Byte} (hmeant : ∀ c ∈ s.calls, Meant c)
    (hdown : downAfter down s.calls ⊆ s.held) (htidy : s.usb.report.Tidy s.usb.nkro down) :
    s.Sound :=
  ⟨hmeant, down, hdown, fun _ => htidy⟩

theorem sound_mid {s : Switching} {down : Finset Byte} (hmeant : ∀ c ∈ s.calls, Meant c)
    (hdown : downAfter down s.calls ⊆ s.held) (hmid : midKeycode s.calls) : s.Sound :=
  ⟨hmeant, down, hdown, fun hc => absurd (hmid.symm.trans hc) Bool.noConfusion⟩

theorem call_sound (s : Switching) (h : s.Sound) (hkept : s.Kept .call) : s.call.Sound := by
  rcases s with ⟨usb, protocol, config, saved, calls, held⟩
  cases calls with
  | nil => exact h
  | cons c rest =>
    rcases h with ⟨hmeant, down, hdown, htidy⟩
    have hrest : ∀ d ∈ rest, Meant d := fun d hd => hmeant d (List.mem_cons_of_mem c hd)
    have hc := hmeant c List.mem_cons_self
    cases c with
    | checkKey code =>
      have htidy := htidy rfl
      change (if usb.report.isKeyPressed usb.nkro code then _ else _ : Switching).Sound
      split
      · -- it is taken out first; what is down after that is no more than before
        refine @sound_of _ down ?_ ?_ htidy
        · intro d hd
          simp only [first, List.cons_append, List.nil_append, List.mem_cons] at hd
          rcases hd with rfl | rfl | hd
          · exact hc
          · trivial
          · exact hrest d hd
        · exact (downAfter_mono rest _ _ (Finset.erase_subset code down)).trans hdown
      · exact sound_of hrest hdown htidy
    | addKey code =>
      -- a code that is put into the report is that of a key
      have hkey := (Usb.code_kinds code).1 hc
      exact sound_of hrest hdown ((htidy rfl).add code hkey.1 hkey.2.1)
    | delKey code =>
      have hkey := (Usb.code_kinds code).1 hc
      exact sound_of hrest hdown ((htidy rfl).del code hkey.2.1)
    | send =>
      refine sound_of hrest hdown ?_
      change (usb.sendKeyboardReport.report).Tidy usb.sendKeyboardReport.nkro down
      rw [send_nkro]
      exact (htidy rfl).congr (send_bits usb)
    | register code =>
      refine sound_of hrest hdown ?_
      change ((usb.registerCode code).report).Tidy (usb.registerCode code).nkro down
      rw [(register_bits usb code hc).2]
      exact (htidy rfl).congr (register_bits usb code hc).1
    | unregister code =>
      refine sound_of hrest hdown ?_
      change ((usb.unregisterCode code).report).Tidy (usb.unregisterCode code).nkro down
      rw [(unregister_bits usb code hc).2]
      exact (htidy rfl).congr (unregister_bits usb code hc).1
    -- in the middle of a change nothing is asked of the report
    | reload m => exact sound_mid (List.forall_mem_cons.mpr ⟨trivial, hrest⟩) hdown rfl
    | clearBefore m => exact sound_mid (List.forall_mem_cons.mpr ⟨trivial, hrest⟩) hdown rfl
    | change m => exact sound_mid (List.forall_mem_cons.mpr ⟨trivial, hrest⟩) hdown rfl
    | save => exact sound_mid (List.forall_mem_cons.mpr ⟨trivial, hrest⟩) hdown rfl
    | clearAfter =>
      refine sound_of hrest hdown ?_
      change (usb.clearKeyboard.report).Tidy usb.clearKeyboard.nkro down
      rw [clear_nkro]
      exact (Report.Tidy.cleared usb.report (hkept rfl) down).congr (clear_bits usb)

theorem last_sound {s : Switching} {c : Call} {calls : List Call} {held : Finset Byte}
    (h : s.Sound) (hmeant : ∀ d ∈ c :: calls, Meant d) (hc : midKeycode [c] = false)
    (hdown : ∀ down, down ⊆ s.held → downAfter down (c :: calls) ⊆ held) :
    Sound { s.last (c :: calls) with held := held } := by
  rcases h with ⟨hwas, down, hsub, htidy⟩
  refine ⟨fun d hd => ?_, down, ?_, fun hmid => htidy ?_⟩
  · rcases List.mem_append.mp hd with hd | hd
    · exact hwas d hd
    · exact hmeant d hd
  · change downAfter down (s.calls ++ c :: calls) ⊆ held
    rw [downAfter_append]
    exact hdown _ hsub
  · exact (midKeycode_last s c calls hc).symm.trans hmid

theorem step_sound (s : Switching) (i : SwitchInput) (h : s.Sound) (hkept : s.Kept i) :
    (s.step i).Sound := by
  cases i with
  | press code =>
    by_cases hkey : isKey code
    · simp only [step, pressCalls, hkey, if_true]
      refine last_sound h ?_ rfl (fun down hsub => Finset.insert_subset_insert code hsub)
      simp [Meant, hkey]
    · simp only [step, pressCalls, hkey, Bool.false_eq_true, if_false]
      refine last_sound h ?_ rfl (fun down hsub => hsub)
      simpa [Meant] using hkey
  | release code =>
    by_cases hkey : isKey code
    · simp only [step, releaseCalls, hkey, if_true]
      refine last_sound h ?_ rfl (fun down hsub => Finset.erase_subset_erase code hsub)
      simp [Meant, hkey]
    · simp only [step, releaseCalls, hkey, Bool.false_eq_true, if_false]
      refine last_sound h ?_ rfl (fun down hsub => hsub)
      simpa [Meant] using hkey
  | nkro m =>
    exact last_sound h (by simp [Meant]) rfl (fun down hsub => hsub)
  | setProtocol value =>
    rcases h with ⟨hmeant, down, hsub, htidy⟩
    refine ⟨hmeant, down, hsub, fun hmid => ?_⟩
    have htidy := htidy hmid
    rcases hkept with hsame | hnone | hmid'
    · change s.usb.report.Tidy (s.setProtocol value).usb.nkro down
      rw [hsame]
      exact htidy
    · exact htidy.switch hnone _
    · exact absurd (hmid'.symm.trans hmid) Bool.noConfusion
  | call => exact call_sound s h hkept

theorem start_sound (protocol config saved : Bool) : (start protocol config saved).Sound := by
  refine @sound_of _ ∅ (fun c hc => absurd hc List.not_mem_nil) (Finset.Subset.refl _) ?_
  refine Report.tidy_of_zero _ _ (fun i => ?_) ∅
  simp [start, Usb.init, Report.empty]

/-- Whatever the switches are at the start: if the host changes the format only
    while the report holds no key, or while an NKRO keycode is being handled, and
    no such keycode ends with something left in the bytes that its last clear
    does not reach, then whenever all keys are released the report holds no key,
    in the format in force or in the other. -/
theorem no_phantom_key (protocol config saved : Bool) (inputs : List SwitchInput)
    (hkept : StepRun.Along step Kept (start protocol config saved) inputs) :
    StepRun.Always step NoPhantom (start protocol config saved) inputs :=
  StepRun.always_of_along step Kept Sound NoPhantom (fun _ h => h.noPhantom) step_sound inputs
    (start protocol config saved) (start_sound protocol config saved) hkept

def switchedWhileHeld : List SwitchInput :=
  [.press 4, .call, .call, .call, .setProtocol 0, .release 4, .call, .call, .setProtocol 1]

theorem no_phantom_key_broken :
    ¬ ∀ protocol config saved inputs,
      StepRun.Along step (fun s i => (s.step i).held.card ≤ 6) (start protocol config saved)
        inputs →
        StepRun.Always step NoPhantom (start protocol config saved) inputs := by
  intro h
  have hend := (StepRun.always_iff_visited step NoPhantom switchedWhileHeld _).mp
    (h true true true switchedWhileHeld (by decide +kernel)) switchedWhileHeld [] (by simp)
  exact absurd ((hend (by decide +kernel) (by decide +kernel) true).2 4) (by decide +kernel)

/-- NKRO is turned on with a key held, and the host turns it off when the key has
    been let go. -/
theorem no_phantom_key_switched :
    StepRun.Always step NoPhantom (start true false false)
      ([.press 4, .call, .call, .call, .nkro .hostNkro] ++ List.replicate 5 .call ++
        [.release 4, .call, .call, .setProtocol 0, .press 5, .call, .call, .call, .setProtocol 0,
          .release 5, .call, .call, .setProtocol 1]) :=
  no_phantom_key true false false _ (by decide +kernel)

end Switching

end K530
