import K530.Quantum.Lookup

/-!
# A Release Is Looked Up as Its Press Was

Layers may change while a key is down. What its release does must not depend on
that, or a modifier pressed on one layer and released on another would stay in
the report. The cache is there for this, and it works: whatever layers are
switched, and whatever else is pressed, a release finds the keycode its press
found.

Only a press of a key writes the layer the cache has for it (`read_processRecord`),
and a press writes it twice with the same layer, because a handler that lets an
event go on has changed nothing (`handlers_pass`).

For the action there is a condition. The remapping switches are read anew for the
release. The magic keycodes change them, and the keyboard is cleared then, so that
nothing is left in the report; but the action of a release may be another one than
its press had. `swappedKeymap` is a keymap of two keys that shows it.

## Main definitions

* `IsPress`: A move that presses a key.

## Theorems

* `release_looked_as_press`: A release finds its press's keycode, and its action
  if the remapping is the same.
* `swapped_release_differs`: With a magic keycode in between it may not.
-/

namespace K530

open StepRun

namespace MatrixPos

variable {rows cols : Nat}

theorem number_lt (key : MatrixPos rows cols) : key.col.val + key.row.val * cols < rows * cols := by
  have hrow : (key.row.val + 1) * cols ≤ rows * cols := Nat.mul_le_mul_right cols key.row.isLt
  have hcol := key.col.isLt
  have hsucc : (key.row.val + 1) * cols = key.row.val * cols + cols := Nat.succ_mul _ _
  omega

theorem keyNumber_eq (hsize : rows * cols ≤ 256) (key : MatrixPos rows cols) :
    key.keyNumber = key.col.val + key.row.val * cols := by
  have hlt := key.number_lt
  exact Nat.mod_eq_of_lt (by omega)

theorem keyNumber_row_lt (hsize : rows * cols ≤ 256) (key : MatrixPos rows cols) :
    key.keyNumber / 8 < (rows * cols + 7) / 8 := by
  have hlt := key.number_lt
  rw [keyNumber_eq hsize]
  omega

theorem keyNumber_inj (hsize : rows * cols ≤ 256) (a b : MatrixPos rows cols)
    (h : a.keyNumber = b.keyNumber) : a = b := by
  rw [keyNumber_eq hsize, keyNumber_eq hsize] at h
  have hcols : 0 < cols := Nat.lt_of_le_of_lt (Nat.zero_le _) a.col.isLt
  have hcol : a.col.val = b.col.val := by
    have hmod := congrArg (fun n => n % cols) h
    simp only [Nat.add_mul_mod_self_right, Nat.mod_eq_of_lt a.col.isLt,
      Nat.mod_eq_of_lt b.col.isLt] at hmod
    exact hmod
  have hrow : a.row.val = b.row.val := by
    have hmul : a.row.val * cols = b.row.val * cols := by omega
    exact Nat.eq_of_mul_eq_mul_right hcols hmul
  cases a with
  | mk ra ca =>
    cases b with
    | mk rb cb =>
      simp only [MatrixPos.mk.injEq, Fin.ext_iff]
      exact ⟨hrow, hcol⟩

end MatrixPos

namespace Lookup

variable {rows cols : Nat}

/-! ### The cache -/

variable (keymap : MatrixKeymap rows cols)

theorem layerSwitchGetLayer_lt (key : MatrixPos rows cols) (l : Lookup rows cols) :
    layerSwitchGetLayer keymap key l < 32 := by
  unfold layerSwitchGetLayer
  cases hfind : (List.range 32).reverse.find? (fun layer =>
      (l.state ||| l.default).getLsbD layer &&
        actionForKey keymap layer key l != ActionCode.transparent) with
  | none => exact Nat.zero_lt_succ 31
  | some layer =>
    have hmem := List.mem_of_find?_eq_some hfind
    rw [List.mem_reverse, List.mem_range] at hmem
    exact hmem

theorem layerSwitchGetLayer_source (key : MatrixPos rows cols)
    (source : BitTable.Table ((rows * cols + 7) / 8) 5) (l : Lookup rows cols) :
    layerSwitchGetLayer keymap key { l with source } = layerSwitchGetLayer keymap key l := rfl

theorem read_update_self (hsize : rows * cols ≤ 256) (key : MatrixPos rows cols) (layer : Nat)
    (l : Lookup rows cols) (h : layer < 32) :
    readSourceLayersCache key (updateSourceLayersCache key layer l) = layer := by
  have hlayer : (BitVec.ofNat 8 layer).toNat = layer := by
    rw [BitVec.toNat_ofNat]
    omega
  unfold readSourceLayersCache updateSourceLayersCache
  rw [BitTable.get_put_self _ _ _ (by omega) (key.keyNumber_row_lt hsize) (by omega), hlayer]

theorem read_update_other (hsize : rows * cols ≤ 256) (key other : MatrixPos rows cols)
    (layer : Nat) (l : Lookup rows cols) (h : key ≠ other) :
    readSourceLayersCache other (updateSourceLayersCache key layer l) =
      readSourceLayersCache other l := by
  have hslot : key.keyNumber ≠ other.keyNumber := by
    intro heq
    exact h (MatrixPos.keyNumber_inj hsize key other heq)
  unfold readSourceLayersCache updateSourceLayersCache
  rw [BitTable.get_put_other _ _ _ _ (by omega) (key.keyNumber_row_lt hsize) hslot]

theorem read_sourceLayer (hsize : rows * cols ≤ 256) (keymap : MatrixKeymap rows cols)
    (event : MatrixEvent rows cols) (key : MatrixPos rows cols) (l : Lookup rows cols) :
    readSourceLayersCache key (sourceLayer keymap event l).2 =
      if event.pressed = true ∧ event.key = key then layerSwitchGetLayer keymap key l
      else readSourceLayersCache key l := by
  unfold sourceLayer
  cases hpressed : event.pressed with
  | false => simp only [Bool.false_eq_true, if_false, false_and]
  | true =>
    by_cases hkey : event.key = key
    · simp only [if_true, hkey, and_self]
      exact read_update_self hsize key _ l (layerSwitchGetLayer_lt keymap key l)
    · simp only [if_true, hkey, and_false, if_false]
      exact read_update_other hsize event.key key _ l hkey

variable (event : MatrixEvent rows cols)

theorem sourceLayer_eq (l : Lookup rows cols) :
    (sourceLayer keymap event l).2 =
      { l with source := (sourceLayer keymap event l).2.source } := by
  unfold sourceLayer
  cases event.pressed <;> rfl

theorem layerSwitch_sourceLayer (key : MatrixPos rows cols) (l : Lookup rows cols) :
    layerSwitchGetLayer keymap key (sourceLayer keymap event l).2 =
      layerSwitchGetLayer keymap key l := by
  rw [sourceLayer_eq]
  exact layerSwitchGetLayer_source keymap key _ l

theorem config_sourceLayer (l : Lookup rows cols) :
    (sourceLayer keymap event l).2.config = l.config := by
  rw [sourceLayer_eq]

/-! ### The handlers -/

variable (keycode : Keycode) (pressed : Bool) (l : Lookup rows cols)

theorem processMagic_source : (processMagic keycode pressed l).1.source = l.source := by
  unfold processMagic
  cases pressed && isMagic keycode <;> rfl

theorem processMagic_pass (h : (processMagic keycode pressed l).2) :
    (processMagic keycode pressed l).1 = l := by
  unfold processMagic at h ⊢
  cases hmagic : pressed && isMagic keycode with
  | true =>
    rw [hmagic] at h
    exact Bool.noConfusion h
  | false => rfl

theorem processEepromReset_source : (processEepromReset keycode pressed l).1.source = l.source := by
  unfold processEepromReset
  cases pressed && keycode == 0x5CDF <;> rfl

theorem processEepromReset_pass (h : (processEepromReset keycode pressed l).2) :
    (processEepromReset keycode pressed l).1 = l := by
  unfold processEepromReset at h ⊢
  cases hreset : pressed && keycode == 0x5CDF with
  | true =>
    rw [hreset] at h
    exact Bool.noConfusion h
  | false => rfl

variable (before after : Bool)

theorem handlers_source (keycode : Keycode) (pressed : Bool) (l : Lookup rows cols) :
    (handlers before after keycode pressed l).1.source = l.source := by
  have hmagic := processMagic_source keycode pressed l
  unfold handlers
  cases before with
  | true => rfl
  | false =>
    cases hgo : (processMagic keycode pressed l).2 with
    | false => simpa [hgo] using hmagic
    | true =>
      cases after with
      | true => simp [hgo, hmagic]
      | false =>
        have hreset := processEepromReset_source keycode pressed
          (processMagic keycode pressed l).1
        rw [hmagic] at hreset
        simpa [hgo] using hreset

theorem handlers_pass (keycode : Keycode) (pressed : Bool) (l : Lookup rows cols)
    (h : (handlers before after keycode pressed l).2) :
    (handlers before after keycode pressed l).1 = l := by
  unfold handlers at h ⊢
  cases before with
  | true => rfl
  | false =>
    cases hgo : (processMagic keycode pressed l).2 with
    | false => simp [hgo] at h
    | true =>
      have hmagic := processMagic_pass keycode pressed l hgo
      cases after with
      | true => simp [hgo] at h
      | false =>
        simp only [hgo, hmagic, Bool.not_true, Bool.false_eq_true, if_false] at h ⊢
        exact processEepromReset_pass keycode pressed l h

/-! ### An event -/

theorem processRecord_cases (keymap : MatrixKeymap rows cols) (event : MatrixEvent rows cols)
    (before after : Bool) (l : Lookup rows cols) :
    let found := sourceLayer keymap event l
    let keycode := keymap.keycode found.1 event.key
    let again := sourceLayer keymap event found.2
    processRecord keymap event before after l =
        (again.2, { keycode, action := some (actionForKey keymap again.1 event.key again.2) }) ∨
      ∃ l', l'.source = found.2.source ∧
        processRecord keymap event before after l = (l', { keycode, action := none }) := by
  intro found keycode again
  have hsource := handlers_source before after keycode event.pressed found.2
  have hkept := handlers_pass before after keycode event.pressed found.2
  have hrecord : processRecord keymap event before after l =
      if (handlers before after keycode event.pressed found.2).2 then
        ((storeOrGetAction keymap event
            (handlers before after keycode event.pressed found.2).1).2,
          { keycode, action := some (storeOrGetAction keymap event
            (handlers before after keycode event.pressed found.2).1).1 })
      else ((handlers before after keycode event.pressed found.2).1,
        { keycode, action := none }) := rfl
  rw [hrecord]
  cases hpass : (handlers before after keycode event.pressed found.2).2 with
  | true =>
    rw [if_pos rfl, hkept hpass]
    exact Or.inl rfl
  | false => exact Or.inr ⟨_, hsource, if_neg Bool.false_ne_true⟩

theorem processRecord_keycode (l : Lookup rows cols) :
    (processRecord keymap event before after l).2.keycode =
      keymap.keycode (sourceLayer keymap event l).1 event.key := by
  rcases processRecord_cases keymap event before after l with h | ⟨l', _, h⟩
  · rw [h]
  · rw [h]

theorem sourceLayer_twice :
    (sourceLayer keymap event (sourceLayer keymap event l).2).1 =
      (sourceLayer keymap event l).1 := by
  have hlayer := layerSwitch_sourceLayer keymap event event.key l
  cases hpressed : event.pressed with
  | true => simpa [sourceLayer, hpressed] using hlayer
  | false => simp [sourceLayer, hpressed]

theorem processRecord_action (l : Lookup rows cols) (a : ActionCode)
    (ha : (processRecord keymap event before after l).2.action = some a) :
    a = actionCodeForKeycode keymap.functions l.config
      (processRecord keymap event before after l).2.keycode := by
  rw [processRecord_keycode]
  rcases processRecord_cases keymap event before after l with h | ⟨l', _, h⟩
  · rw [h] at ha
    simp only [Option.some.injEq] at ha
    rw [← ha, actionForKey, config_sourceLayer, config_sourceLayer, sourceLayer_twice]
  · rw [h] at ha
    simp only [reduceCtorEq] at ha

theorem read_processRecord (hsize : rows * cols ≤ 256) (keymap : MatrixKeymap rows cols)
    (event : MatrixEvent rows cols) (before after : Bool) (key : MatrixPos rows cols)
    (l : Lookup rows cols) :
    readSourceLayersCache key (processRecord keymap event before after l).1 =
      if event.pressed = true ∧ event.key = key then layerSwitchGetLayer keymap key l
      else readSourceLayersCache key l := by
  have hfirst := read_sourceLayer hsize keymap event key l
  rcases processRecord_cases keymap event before after l with h | ⟨l', hsource, h⟩
  · -- both lookups of a press write the layer that is found
    rw [h, read_sourceLayer hsize, layerSwitch_sourceLayer, hfirst]
    by_cases hpress : event.pressed ∧ event.key = key
    · simp only [hpress, and_self, if_true]
    · simp only [hpress, if_false]
  · rw [h, ← hfirst]
    simp only [readSourceLayersCache, hsource]

/-! ### Between press and release -/

/-- A move that presses a key. -/
def IsPress (key : MatrixPos rows cols) : Move rows cols → Prop
  | .event e _ _ => e.pressed = true ∧ e.key = key
  | .layers _ _ => False

theorem read_step (hsize : rows * cols ≤ 256) (keymap : MatrixKeymap rows cols)
    (key : MatrixPos rows cols) (l : Lookup rows cols) (m : Move rows cols)
    (h : ¬ IsPress key m) :
    readSourceLayersCache key (step keymap l m) = readSourceLayersCache key l := by
  cases m with
  | event e before after =>
    have hread := read_processRecord hsize keymap e before after key l
    exact hread.trans (if_neg h)
  | layers state default => rfl

theorem read_run (hsize : rows * cols ≤ 256) (keymap : MatrixKeymap rows cols)
    (key : MatrixPos rows cols) (moves : List (Move rows cols))
    (h : ∀ m, m ∈ moves → ¬ IsPress key m) :
    ∀ l, readSourceLayersCache key (run (step keymap) l moves) =
      readSourceLayersCache key l := by
  induction moves with
  | nil =>
    intro l
    rfl
  | cons m moves ih =>
    intro l
    have hfirst := read_step hsize keymap key l m (h m (List.mem_cons_self ..))
    have hrest := ih (fun m' hm' => h m' (List.mem_cons_of_mem m hm')) (step keymap l m)
    rw [← hfirst]
    exact hrest

/-- The release of a key, so many moves after its press, finds the press's
    keycode, and its action if the handlers let both events go on. -/
def SameLookup (keymap : MatrixKeymap rows cols) (l : Lookup rows cols)
    (key : MatrixPos rows cols) (moves : List (Move rows cols))
    (before after before' after' : Bool) : Prop :=
  let press := processRecord keymap { key, pressed := true } before after l
  let release := processRecord keymap { key, pressed := false } before' after'
    (run (step keymap) press.1 moves)
  release.2.keycode = press.2.keycode ∧
    ∀ a a', press.2.action = some a → release.2.action = some a' → a' = a

/-- A release finds its press's keycode. It finds its action too if the keymap
    configuration is the one it was pressed under. -/
theorem release_looked_as_press (hsize : rows * cols ≤ 256) (keymap : MatrixKeymap rows cols)
    (key : MatrixPos rows cols) (l : Lookup rows cols) (moves : List (Move rows cols))
    (before after before' after' : Bool) (hmoves : ∀ m, m ∈ moves → ¬ IsPress key m) :
    let press := processRecord keymap { key, pressed := true } before after l
    let released := run (step keymap) press.1 moves
    let release := processRecord keymap { key, pressed := false } before' after' released
    release.2.keycode = press.2.keycode ∧
      (released.config = l.config →
        SameLookup keymap l key moves before after before' after') := by
  intro press released release
  have hcached : readSourceLayersCache key released = layerSwitchGetLayer keymap key l := by
    have hpress := read_processRecord hsize keymap { key, pressed := true } before after key l
    simp only [and_self, if_true] at hpress
    rw [← hpress]
    exact read_run hsize keymap key moves hmoves press.1
  have hkeycode : release.2.keycode = press.2.keycode := by
    simp only [release, press, processRecord_keycode, sourceLayer, Bool.false_eq_true, if_false,
      if_true, hcached]
  refine ⟨hkeycode, fun hconfig => ⟨hkeycode, ?_⟩⟩
  intro a a' ha ha'
  have haction := processRecord_action keymap _ before after l a ha
  have haction' := processRecord_action keymap _ before' after' released a' ha'
  rw [haction, haction', hconfig]
  exact congrArg _ hkeycode

/-! ### A magic keycode in between -/

instance neZeroCols2 : NeZero 2 := ⟨by decide⟩

/-- Left Control, and the keycode that swaps it with Caps Lock. -/
def swappedKeymap : MatrixKeymap 1 2 :=
  { keycode := fun _ key => if key.col = 0 then kcLeftCtrl else 0x5C02,
    functions := fun _ => ActionCode.no }

/-- Left Control is held while the swap is switched on. -/
theorem swapped_release_differs :
    ¬ SameLookup swappedKeymap init { row := 0, col := 0 }
      [.event { key := { row := 0, col := 1 }, pressed := true } false false,
        .event { key := { row := 0, col := 1 }, pressed := false } false false]
      false false false false := by
  intro h
  have hactions := h.2 (ActionCode.make ActionCode.actMods kcLeftCtrl)
    (ActionCode.make ActionCode.actMods kcCapsLock) (by decide +kernel) (by decide +kernel)
  exact absurd hactions (by decide)

theorem release_looked_as_press_swapped :
    (processRecord swappedKeymap { key := { row := 0, col := 0 }, pressed := false } false false
      (run (step swappedKeymap)
        (processRecord swappedKeymap { key := { row := 0, col := 0 }, pressed := true } false false
          init).1
        [.layers 2 1])).2.keycode = kcLeftCtrl :=
  ((release_looked_as_press (by decide) swappedKeymap { row := 0, col := 0 } init [.layers 2 1]
    false false false false (by
      intro m hm
      rw [List.mem_singleton.mp hm]
      exact id)).1).trans (by decide +kernel)

end Lookup

end K530
