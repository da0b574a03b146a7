import K530.Quantum.OneShot
import K530.Theory.Report.Formats

/-!
# One-Shot Modifiers Wait for a Key

Modifiers that have been tapped are owed to the next key: every report carries
them until one adds a key, and then they are gone. What is owed can be told from
the taps and the reports alone. The code clears its one-shot modifiers after every
report that has a key in it, and so it agrees as long as the reports that add no
key have none.

A report is sent for much else while other keys are held: a key is released, a
modifier is pressed or released, a layer is switched, a key that is pressed
already is pressed again, or there is no room for one. Each of these spends the
modifiers, and the next key is without them.

## Main definitions

* `Owed`: What is owed, and the last report.

## Theorems

* `Owed.Kept.send`: A report.
* `oneshot_mods_law`: Every run that spares them.
-/

namespace K530

/-! ### What is owed -/

/-- A report has a key that the one before it did not have. -/
def addsKey (nkro : Bool) (before r : Report) : Bool :=
  decide (∃ key : Byte, r.isKeyPressed nkro key = true ∧ before.isKeyPressed nkro key = false)

/-- The modifiers that are owed to the next key, and the last report. -/
structure Owed where
  mods : Byte
  last : Report
  deriving DecidableEq

namespace Owed

/-- A report that adds a key has them, and then nothing is owed. -/
def hear (nkro : Bool) (o : Owed) : HostReport → Owed
  | .keyboard r => { mods := if addsKey nkro o.last r then 0 else o.mods, last := r }
  | .system _ => o
  | .consumer _ => o

def hearAll (nkro : Bool) (o : Owed) (reports : List HostReport) : Owed :=
  reports.foldl (hear nkro) o

/-- A report has what is owed. -/
def hasMods (o : Owed) : HostReport → Prop
  | .keyboard r => o.mods &&& ~~~r.mods = 0
  | .system _ => True
  | .consumer _ => True

/-- Each of the reports has what is owed when it is sent. -/
def Carried (nkro : Bool) : Owed → List HostReport → Prop
  | _, [] => True
  | o, r :: reports => o.hasMods r ∧ Carried nkro (o.hear nkro r) reports

/-- A tap on a one-shot key owes its modifiers to the next key. When it is held,
    or tapped more than once, its release calls them off. -/
def move (disabled : Bool) (o : Owed) : StickyMove → Owed
  | .key _ _ _ => o
  | .oneshot pressed tapCount right mods =>
    if disabled then o
    else if tapCount = 1 then
      if pressed then { o with mods := sideMods right mods ||| o.mods } else o
    else if pressed then o
    else { o with mods := 0 }

theorem carried_append (nkro : Bool) (o : Owed) (reports more : List HostReport) :
    o.Carried nkro (reports ++ more) ↔
      o.Carried nkro reports ∧ (o.hearAll nkro reports).Carried nkro more := by
  induction reports generalizing o with
  | nil => exact (and_iff_right trivial).symm
  | cons r reports ih =>
    rw [List.cons_append, Carried, Carried, ih, and_assoc]
    rfl

theorem hearAll_append (nkro : Bool) (o : Owed) (reports more : List HostReport) :
    o.hearAll nkro (reports ++ more) = (o.hearAll nkro reports).hearAll nkro more :=
  List.foldl_append

/-- The code's one-shot modifiers are what is owed, and the keys are those of the
    last report. -/
structure Kept (nkro : Bool) (u : Usb) (o : Owed) : Prop where
  format : u.nkro = nkro
  mods : u.oneshotMods = o.mods
  last : ∀ key, o.last.isKeyPressed nkro key = u.report.isKeyPressed nkro key

def Leads (nkro : Bool) (sent : List HostReport) (o : Owed) (u : Usb) : Prop :=
  ∃ reports, u.sent = sent ++ reports ∧ o.Carried nkro reports ∧
    Kept nkro u (o.hearAll nkro reports)

variable {nkro : Bool} {u : Usb} {o : Owed}

theorem Kept.stay (h : Kept nkro u o) : Leads nkro u.sent o u :=
  ⟨[], (List.append_nil _).symm, trivial, h⟩

theorem hearAll_mods (o : Owed) (reports : List HostReport)
    (h : (o.hearAll nkro reports).mods ≠ 0) : o.mods ≠ 0 := by
  induction reports generalizing o with
  | nil => exact h
  | cons r reports ih =>
    have hone := ih (o.hear nkro r) h
    cases r with
    | keyboard r =>
      unfold hear at hone
      dsimp only at hone
      by_cases hadds : addsKey nkro o.last r
      · rw [if_pos hadds] at hone
        exact absurd rfl hone
      · rwa [if_neg hadds] at hone
    | system _ => exact hone
    | consumer _ => exact hone

theorem Leads.trans {sent : List HostReport} {v u' : Usb} (hmods : v.oneshotMods = o.mods)
    (h : Leads nkro sent o u)
    (h' : ∀ o', Kept nkro u o' → (u.oneshotMods ≠ 0 → v.oneshotMods ≠ 0) →
      Leads nkro u.sent o' u') : Leads nkro sent o u' := by
  obtain ⟨reports, hsent, hcarried, hkept⟩ := h
  obtain ⟨more, hsent', hcarried', hkept'⟩ := h' _ hkept (fun howed => by
    rw [hmods]
    exact hearAll_mods o reports (hkept.mods ▸ howed))
  refine ⟨reports ++ more, ?_, ?_, ?_⟩
  · rw [hsent', hsent, List.append_assoc]
  · exact (carried_append ..).mpr ⟨hcarried, hcarried'⟩
  · rw [hearAll_append]
    exact hkept'

theorem Kept.other (h : Kept nkro u o) (r : HostReport) (hhear : o.hear nkro r = o)
    (hmods : o.hasMods r) : Leads nkro u.sent o { u with sent := u.sent ++ [r] } := by
  refine ⟨[r], rfl, ⟨hmods, trivial⟩, ?_⟩
  rw [hearAll, List.foldl_cons, hhear]
  exact ⟨h.format, h.mods, h.last⟩

/-! ### A report -/

theorem hasAnykey_of_addsKey (before r : Report) (h : addsKey nkro before r) :
    r.hasAnykey nkro ≠ 0 := by
  obtain ⟨key, hkey, _⟩ := of_decide_eq_true h
  exact Report.hasAnykey_ne_zero nkro r key hkey

theorem send_leads (hformat : u.nkro = nkro) (hmods : u.oneshotMods = o.mods)
    (hspares : u.oneshotMods ≠ 0 → u.report.hasAnykey nkro ≠ 0 →
      addsKey nkro o.last u.report) : Leads nkro u.sent o u.sendKeyboardReport := by
  have hcarried : ∀ mods : Byte, o.mods &&& ~~~(mods ||| o.mods) = 0 := by
    intro mods
    ext i
    simp
    tauto
  subst hformat
  unfold Usb.sendKeyboardReport
  by_cases hzero : u.oneshotMods = 0
  · rw [if_neg (not_not_intro hzero)]
    refine ⟨_, rfl, ⟨?_, trivial⟩, ⟨rfl, ?_, fun key => rfl⟩⟩
    · unfold hasMods
      dsimp only
      rw [← hmods, hzero]
      exact BitVec.zero_and
    · unfold hearAll hear
      rw [List.foldl_cons, List.foldl_nil]
      dsimp only
      rw [← hmods, hzero, ite_self]
  · rw [if_pos hzero]
    refine ⟨_, rfl, ⟨?_, trivial⟩, ⟨rfl, ?_, fun key => rfl⟩⟩
    · unfold hasMods
      dsimp only
      rw [hmods]
      exact hcarried _
    · -- The code clears them if there is a key, and then there is a new one.
      have hsame : u.report.hasAnykey u.nkro ≠ 0 ↔ addsKey u.nkro o.last u.report :=
        ⟨hspares hzero, hasAnykey_of_addsKey o.last u.report⟩
      rw [hearAll, List.foldl_cons, List.foldl_nil, hear, ← hmods]
      exact if_congr hsame rfl rfl

theorem Kept.send (h : Kept nkro u o)
    (hspares : u.oneshotMods ≠ 0 → u.report.hasAnykey u.nkro = 0) :
    Leads nkro u.sent o u.sendKeyboardReport :=
  send_leads h.format h.mods (fun howed hany => absurd (hspares howed) (h.format ▸ hany))

theorem Kept.system (h : Kept nkro u o) (usage : BitVec 16) :
    Leads nkro u.sent o (u.systemSend usage) :=
  h.other (.system usage) rfl trivial

theorem Kept.consumer (h : Kept nkro u o) (usage : BitVec 16) :
    Leads nkro u.sent o (u.consumerSend usage) :=
  h.other (.consumer usage) rfl trivial

end Owed

/-! ### What spares them -/

namespace Usb

/-- There is no key in the report. -/
def noKey (u : Usb) : Bool := u.report.hasAnykey u.nkro == 0

/-- There is no key in the report but this one. -/
def noOtherKey (code : Byte) (u : Usb) : Bool := (u.delKey code).noKey

/-- Pressing a keycode. A key that is pressed already is released first. -/
def sparesRegister (code : Byte) (u : Usb) : Bool :=
  if isKey code then
    if u.report.isKeyPressed u.nkro code then u.noOtherKey code else u.report.room u.nkro code
  else !isMod code || u.noKey

/-- Releasing a keycode. -/
def sparesUnregister (code : Byte) (u : Usb) : Bool :=
  if isKey code then u.noOtherKey code else !isMod code || u.noKey

/-- A keycode with modifiers. -/
def sparesMods (pressed : Bool) (mods code : Byte) (u : Usb) : Bool :=
  if pressed then (mods == 0 || u.noKey) && u.sparesRegister code
  else u.sparesUnregister code &&
    (mods == 0 || if isKey code then u.noOtherKey code else u.noKey)

theorem delKey_bits (nkro : Bool) {r r' : Report} (h : r'.bits = r.bits) (code : Byte) :
    (r'.delKeyFromReport nkro code).bits = (r.delKeyFromReport nkro code).bits := by
  obtain ⟨_, bits⟩ := r
  obtain ⟨_, bits'⟩ := r'
  dsimp only at h
  subst h
  cases nkro with
  | false => rfl
  | true =>
    unfold Report.delKeyFromReport Report.delKeyBit
    by_cases hfits : code.toNat / 8 < 30
    · rw [if_pos rfl, if_pos rfl, dif_pos hfits, dif_pos hfits]
    · rw [if_pos rfl, if_pos rfl, dif_neg hfits, dif_neg hfits]

theorem spares_congr {u u' : Usb} (hbits : u'.report.bits = u.report.bits)
    (hnkro : u'.nkro = u.nkro) : u'.noKey = u.noKey ∧
      (∀ code, u'.report.isKeyPressed u'.nkro code = u.report.isKeyPressed u.nkro code) ∧
      (∀ code, u'.report.room u'.nkro code = u.report.room u.nkro code) := by
  obtain ⟨⟨_, bits⟩, _, _, _, _, nkro, _⟩ := u
  obtain ⟨⟨_, bits'⟩, _, _, _, _, nkro', _⟩ := u'
  dsimp only at hbits hnkro
  subst hbits hnkro
  exact ⟨rfl, fun _ => rfl, fun _ => rfl⟩

theorem sparesRegister_congr {u u' : Usb} (hbits : u'.report.bits = u.report.bits)
    (hnkro : u'.nkro = u.nkro) (code : Byte) : u'.sparesRegister code = u.sparesRegister code := by
  -- The modifiers of a report are not asked for, only its keys.
  have hdel : (u'.delKey code).report.bits = (u.delKey code).report.bits := by
    unfold delKey
    rw [hnkro]
    exact delKey_bits u.nkro hbits code
  obtain ⟨hnone, hpressed, hroom⟩ := spares_congr hbits hnkro
  have hother : u'.noOtherKey code = u.noOtherKey code :=
    (spares_congr hdel hnkro).1
  unfold sparesRegister
  rw [hnone, hpressed, hroom, hother]

theorem send_keys (u : Usb) : u.sendKeyboardReport.report.bits = u.report.bits ∧
    u.sendKeyboardReport.nkro = u.nkro := by
  unfold sendKeyboardReport
  by_cases hzero : u.oneshotMods = 0
  · rw [if_neg (not_not_intro hzero)]
    exact ⟨rfl, rfl⟩
  · rw [if_pos hzero]
    exact ⟨rfl, rfl⟩

theorem noKey_unregisterCode (u : Usb) (code : Byte) :
    (u.unregisterCode code).noKey = if isKey code then u.noOtherKey code else u.noKey := by
  have hsend : ∀ v : Usb, v.sendKeyboardReport.noKey = v.noKey :=
    fun v => (spares_congr (send_keys v).1 (send_keys v).2).1
  unfold unregisterCode
  by_cases hzero : code = 0
  · subst hzero
    rfl
  rw [if_neg hzero]
  by_cases hkey : isKey code
  · rw [if_pos hkey, if_pos hkey]
    exact hsend (u.delKey code)
  rw [if_neg hkey, if_neg hkey]
  by_cases hmod : isMod code
  · rw [if_pos hmod]
    exact hsend (u.delMods (modBit code))
  rw [if_neg hmod]
  by_cases hsystem : isSystem code
  · rw [if_pos hsystem]
    rfl
  rw [if_neg hsystem]
  by_cases hconsumer : isConsumer code
  · rw [if_pos hconsumer]
    rfl
  · rw [if_neg hconsumer]

end Usb

/-- While modifiers are owed, the reports that add no key have none. -/
def StickyMove.spares (disabled : Bool) (u : Usb) : StickyMove → Bool
  | .key pressed _ (.mods right mods code) => u.sparesMods pressed (sideMods right mods) code
  | .key _ _ (.system _) => true
  | .key _ _ (.consumer _) => true
  | .key _ _ (.layerOnOff _) => u.noKey
  | .key pressed tapCount (.layerTapKey _ code) =>
    if 0 < tapCount then
      if pressed then u.sparesRegister code else u.sparesUnregister code
    else u.noKey
  | .oneshot pressed tapCount right mods =>
    if disabled then u.sparesMods pressed (sideMods right mods) 0
    else tapCount == 1 || !pressed || u.noKey

namespace Owed

variable {nkro : Bool} {u : Usb} {o : Owed}

/-! ### A press or a release -/

theorem isKey_fits (code : Byte) (h : isKey code) : code ≠ 0 ∧ code.toNat / 8 < 30 := by
  unfold isKey at h
  rw [Bool.and_eq_true, decide_eq_true_iff, decide_eq_true_iff] at h
  have hlow : (4 : Byte).toNat ≤ code.toNat := h.1
  have hhigh : code.toNat ≤ (0xA4 : Byte).toNat := h.2
  have h4 : (4 : Byte).toNat = 4 := rfl
  have hA4 : (0xA4 : Byte).toNat = 164 := rfl
  refine ⟨?_, by omega⟩
  rintro rfl
  have h0 : (0 : Byte).toNat = 0 := rfl
  omega

theorem Kept.quiet (h : Kept nkro u o) (u' : Usb) (hsent : u'.sent = u.sent)
    (hkept : Kept nkro u' o) (hspares : u.oneshotMods ≠ 0 → u'.noKey) :
    Leads nkro u.sent o u'.sendKeyboardReport := by
  rw [← hsent]
  refine hkept.send (fun howed => beq_iff_eq.mp (hspares ?_))
  rwa [h.mods, ← hkept.mods]

theorem Kept.delKey (h : Kept nkro u o) (code : Byte)
    (hspares : u.oneshotMods ≠ 0 → u.noOtherKey code) :
    Leads nkro u.sent o (u.delKey code).sendKeyboardReport := by
  refine send_leads (u := u.delKey code) h.format h.mods (fun howed hany => ?_)
  -- With no other key the report is empty, and spends nothing.
  have hnone := beq_iff_eq.mp (hspares howed)
  exact absurd hnone (h.format ▸ hany)

theorem Kept.addKey (h : Kept nkro u o) (code : Byte) (hkey : isKey code)
    (hnot : u.report.isKeyPressed u.nkro code = false)
    (hroom : u.oneshotMods ≠ 0 → u.report.room u.nkro code) :
    Leads nkro u.sent o (u.addKey code).sendKeyboardReport := by
  obtain ⟨hcode, hfits⟩ := isKey_fits code hkey
  refine send_leads (u := u.addKey code) h.format h.mods (fun howed _ => ?_)
  have hlast := h.last code
  rw [← h.format] at hlast ⊢
  -- The key that is added was not in the last report, and there is room for it.
  refine decide_eq_true ⟨code, ?_, hlast.trans hnot⟩
  exact (Report.isKeyPressed_add u.nkro u.report code code hcode hfits).mpr
    (Or.inr ⟨hroom howed, rfl⟩)

theorem Kept.noKeyCode (h : Kept nkro u o) (code : Byte) (u' : Usb) (system consumer : BitVec 16)
    (hsent : u'.sent = u.sent) (hkept : Kept nkro u' o)
    (hspares : u.oneshotMods ≠ 0 → (!isMod code || u'.noKey) = true) :
    Leads nkro u.sent o
      (if isMod code then u'.sendKeyboardReport
       else if isSystem code then u.systemSend system
       else if isConsumer code then u.consumerSend consumer
       else u) := by
  by_cases hmod : isMod code
  · rw [if_pos hmod]
    refine h.quiet u' hsent hkept (fun howed => ?_)
    have hor := hspares howed
    rwa [hmod, Bool.not_true, Bool.false_or] at hor
  rw [if_neg hmod]
  by_cases hsystem : isSystem code
  · rw [if_pos hsystem]
    exact h.system system
  rw [if_neg hsystem]
  by_cases hconsumer : isConsumer code
  · rw [if_pos hconsumer]
    exact h.consumer consumer
  · rw [if_neg hconsumer]
    exact h.stay

theorem Kept.registerCode (h : Kept nkro u o) (code : Byte)
    (hspares : u.oneshotMods ≠ 0 → u.sparesRegister code) :
    Leads nkro u.sent o (u.registerCode code) := by
  unfold Usb.registerCode
  unfold Usb.sparesRegister at hspares
  by_cases hzero : code = 0
  · rw [if_pos hzero]
    exact h.stay
  rw [if_neg hzero]
  by_cases hkey : isKey code
  · rw [if_pos hkey] at hspares ⊢
    obtain ⟨_, hfits⟩ := isKey_fits code hkey
    by_cases hpressed : u.report.isKeyPressed u.nkro code
    · -- A key that is pressed already is released in a report of its own.
      rw [if_pos hpressed] at hspares ⊢
      have hkeys := Usb.send_keys (u.delKey code)
      obtain ⟨_, hsame, hroom⟩ := Usb.spares_congr hkeys.1 hkeys.2
      refine Leads.trans h.mods (h.delKey code hspares)
        (fun o' h' _ => h'.addKey code hkey ?_ (fun _ => ?_))
      · rw [hsame, Bool.eq_false_iff]
        exact fun hc => ((Report.isKeyPressed_del u.nkro u.report code code hfits).mp hc).2 rfl
      · rw [hroom]
        exact (Report.room_del u.nkro u.report code hpressed).2
    · rw [if_neg hpressed] at hspares ⊢
      exact h.addKey code hkey (Bool.eq_false_iff.mpr hpressed) hspares
  rw [if_neg hkey] at hspares ⊢
  exact h.noKeyCode code (u.addMods (modBit code)) _ _ rfl ⟨h.format, h.mods, h.last⟩ hspares

theorem Kept.unregisterCode (h : Kept nkro u o) (code : Byte)
    (hspares : u.oneshotMods ≠ 0 → u.sparesUnregister code) :
    Leads nkro u.sent o (u.unregisterCode code) := by
  unfold Usb.unregisterCode
  unfold Usb.sparesUnregister at hspares
  by_cases hzero : code = 0
  · rw [if_pos hzero]
    exact h.stay
  rw [if_neg hzero]
  by_cases hkey : isKey code
  · rw [if_pos hkey] at hspares ⊢
    exact h.delKey code hspares
  rw [if_neg hkey] at hspares ⊢
  exact h.noKeyCode code (u.delMods (modBit code)) _ _ rfl ⟨h.format, h.mods, h.last⟩ hspares

theorem Kept.mods_send (h : Kept nkro u o) (u' : Usb)
    (hsame : u' = { u with realMods := u'.realMods, weakMods := u'.weakMods })
    (hspares : u.oneshotMods ≠ 0 → u.noKey) :
    Leads nkro u.sent o u'.sendKeyboardReport := by
  rw [hsame]
  exact h.quiet _ rfl ⟨h.format, h.mods, h.last⟩ hspares

theorem Kept.modsThenCode (h : Kept nkro u o) (code : Byte) (u' : Usb)
    (hsame : u' = { u with realMods := u'.realMods, weakMods := u'.weakMods })
    (hnone : u.oneshotMods ≠ 0 → u.noKey)
    (hspares : u.oneshotMods ≠ 0 → u.sparesRegister code) :
    Leads nkro u.sent o (u'.sendKeyboardReport.registerCode code) := by
  refine Leads.trans h.mods (h.mods_send u' hsame hnone)
    (fun o' h' howed => h'.registerCode code (fun howed' => ?_))
  -- The keys are those of before the modifiers, so there is as much room.
  have hkeys := Usb.send_keys u'
  have hbits : u'.report.bits = u.report.bits := by rw [hsame]
  have hnkro : u'.nkro = u.nkro := by rw [hsame]
  rw [Usb.sparesRegister_congr (hkeys.1.trans hbits) (hkeys.2.trans hnkro) code]
  exact hspares (howed howed')

theorem Kept.processMods (h : Kept nkro u o) (pressed : Bool) (mods code : Byte)
    (hspares : u.oneshotMods ≠ 0 → u.sparesMods pressed mods code) :
    Leads nkro u.sent o (Qmk.processMods pressed mods code u) := by
  unfold Qmk.processMods
  cases pressed with
  | true =>
    have hboth : u.oneshotMods ≠ 0 → (mods == 0 || u.noKey) = true ∧
        u.sparesRegister code = true := fun howed => by
      have hand := hspares howed
      rwa [Usb.sparesMods, if_pos rfl, Bool.and_eq_true] at hand
    rw [if_pos rfl]
    dsimp only
    by_cases hmods : mods = 0
    · rw [if_neg (not_not_intro hmods)]
      exact h.registerCode code (fun howed => (hboth howed).2)
    · rw [if_pos hmods]
      have hnone : u.oneshotMods ≠ 0 → u.noKey = true := fun howed => by
        have hor := (hboth howed).1
        rwa [beq_false_of_ne hmods, Bool.false_or] at hor
      by_cases hreal : (isMod code || code == 0) = true
      · rw [if_pos hreal]
        exact h.modsThenCode code (u.addMods mods) rfl hnone (fun howed => (hboth howed).2)
      · rw [if_neg hreal]
        exact h.modsThenCode code (u.addWeakMods mods) rfl hnone (fun howed => (hboth howed).2)
  | false =>
    have hboth : u.oneshotMods ≠ 0 → u.sparesUnregister code ∧
        (mods == 0 || if isKey code then u.noOtherKey code else u.noKey) = true :=
      fun howed => by
        have hand := hspares howed
        rwa [Usb.sparesMods, if_neg Bool.false_ne_true, Bool.and_eq_true] at hand
    have hrelease := h.unregisterCode code (fun howed => (hboth howed).1)
    rw [if_neg Bool.false_ne_true]
    dsimp only
    by_cases hmods : mods = 0
    · rw [if_neg (not_not_intro hmods)]
      exact hrelease
    · rw [if_pos hmods]
      have hnone : u.oneshotMods ≠ 0 → (u.unregisterCode code).noKey = true := fun howed => by
        have hor := (hboth howed).2
        rw [beq_false_of_ne hmods, Bool.false_or] at hor
        -- The modifiers are released after the key, in a report without it.
        rw [Usb.noKey_unregisterCode]
        exact hor
      refine Leads.trans h.mods hrelease (fun o' h' howed => ?_)
      by_cases hreal : (isMod code || code == 0) = true
      · rw [if_pos hreal]
        exact h'.mods_send _ rfl (fun howed' => hnone (howed howed'))
      · rw [if_neg hreal]
        exact h'.mods_send _ rfl (fun howed' => hnone (howed howed'))

theorem Kept.clearKeyboardButModsAndKeys (h : Kept nkro u o)
    (hspares : u.oneshotMods ≠ 0 → u.noKey) :
    Leads nkro u.sent o u.clearKeyboardButModsAndKeys := by
  -- Both other reports are cleared before that of the keyboard is sent.
  refine Leads.trans h.mods (h.system 0) (fun _ h₁ howed₁ => ?_)
  refine Leads.trans h₁.mods (h₁.consumer 0) (fun _ h₂ howed₂ => ?_)
  exact h₂.quiet ((u.systemSend 0).consumerSend 0).clearWeakMods.clearMacroMods rfl
    ⟨h₂.format, h₂.mods, h₂.last⟩ (fun howed => hspares (howed₁ (howed₂ howed)))

theorem Kept.processAction {q : Qmk} (h : Kept nkro q.usb o) (disabled pressed : Bool)
    (tapCount : Nat) (action : Action)
    (hspares : q.usb.oneshotMods ≠ 0 →
      (StickyMove.key pressed tapCount action).spares disabled q.usb) :
    Leads nkro q.usb.sent o (q.processAction pressed tapCount action).usb := by
  cases action with
  | mods right mods code => exact h.processMods pressed (sideMods right mods) code hspares
  | system usage => exact h.system _
  | consumer usage => exact h.consumer _
  | layerOnOff layer =>
    cases pressed with
    | true => exact h.clearKeyboardButModsAndKeys hspares
    | false => exact h.clearKeyboardButModsAndKeys hspares
  | layerTapKey layer code =>
    unfold StickyMove.spares at hspares
    unfold Qmk.processAction
    dsimp only at hspares ⊢
    by_cases htap : 0 < tapCount
    · rw [if_pos htap] at hspares
      cases pressed with
      | true =>
        rw [if_pos rfl, if_pos htap]
        exact h.registerCode code hspares
      | false =>
        rw [if_neg Bool.false_ne_true, if_pos htap]
        exact h.unregisterCode code hspares
    · rw [if_neg htap] at hspares
      cases pressed with
      | true =>
        rw [if_pos rfl, if_neg htap]
        exact h.clearKeyboardButModsAndKeys hspares
      | false =>
        rw [if_neg Bool.false_ne_true, if_neg htap]
        exact h.clearKeyboardButModsAndKeys hspares

theorem Kept.registerMods (h : Kept nkro u o) (mods : Byte)
    (hspares : u.oneshotMods ≠ 0 → u.noKey) : Leads nkro u.sent o (u.registerMods mods) := by
  unfold Usb.registerMods
  by_cases hmods : mods = 0
  · rw [if_neg (not_not_intro hmods)]
    exact h.stay
  · rw [if_pos hmods]
    exact h.mods_send _ rfl hspares

theorem Kept.unregisterMods (h : Kept nkro u o) (mods : Byte)
    (hspares : u.oneshotMods ≠ 0 → u.noKey) :
    Leads nkro u.sent o (u.unregisterMods mods) := by
  unfold Usb.unregisterMods
  by_cases hmods : mods = 0
  · rw [if_neg (not_not_intro hmods)]
    exact h.stay
  · rw [if_pos hmods]
    exact h.mods_send _ rfl hspares

theorem Kept.setOneshotMods (h : Kept nkro u o) (mods : Byte) :
    Leads nkro u.sent { o with mods } (u.setOneshotMods false mods) := by
  unfold Usb.setOneshotMods
  rw [if_neg Bool.false_ne_true]
  by_cases hsame : u.oneshotMods = mods
  · rw [if_neg (not_not_intro hsame)]
    exact Kept.stay ⟨h.format, hsame, h.last⟩
  · rw [if_pos hsame]
    exact Kept.stay (u := { u with oneshotMods := mods }) ⟨h.format, rfl, h.last⟩

theorem Kept.clearOneshotMods (h : Kept nkro u o) :
    u.clearOneshotMods.sent = u.sent ∧ Kept nkro u.clearOneshotMods { o with mods := 0 } := by
  unfold Usb.clearOneshotMods
  by_cases hzero : u.oneshotMods = 0
  · rw [if_neg (not_not_intro hzero)]
    exact ⟨rfl, h.format, hzero, h.last⟩
  · rw [if_pos hzero]
    exact ⟨rfl, h.format, rfl, h.last⟩

theorem Kept.processOneshotMods {q : Qmk} (h : Kept nkro q.usb o) (disabled pressed : Bool)
    (tapCount : Nat) (right : Bool) (mods : Byte)
    (hspares : q.usb.oneshotMods ≠ 0 →
      (StickyMove.oneshot pressed tapCount right mods).spares disabled q.usb) :
    Leads nkro q.usb.sent (o.move disabled (.oneshot pressed tapCount right mods))
      (q.usb.processOneshotMods disabled pressed tapCount (sideMods right mods)) := by
  unfold StickyMove.spares at hspares
  unfold move Usb.processOneshotMods
  dsimp only at hspares ⊢
  by_cases hdisabled : disabled
  · rw [if_pos hdisabled] at hspares
    rw [if_pos hdisabled, if_pos hdisabled]
    exact h.processMods pressed (sideMods right mods) 0 hspares
  rw [if_neg hdisabled] at hspares
  rw [if_neg hdisabled, if_neg hdisabled]
  by_cases hone : tapCount = 1
  · subst hone
    rw [if_pos rfl]
    cases pressed with
    | true =>
      rw [if_pos rfl, if_pos rfl, if_neg (by decide), if_pos rfl, h.mods,
        Bool.eq_false_iff.mpr hdisabled]
      exact h.setOneshotMods _
    | false =>
      rw [if_neg Bool.false_ne_true, if_neg Bool.false_ne_true, if_neg (by decide), if_pos rfl]
      exact h.stay
  · rw [if_neg hone, if_neg hone, if_neg hone, ite_self, ite_self]
    rw [beq_false_of_ne hone, Bool.false_or] at hspares
    cases pressed with
    | true => exact h.registerMods _ hspares
    | false =>
      -- They are called off before the report of the release is sent.
      obtain ⟨hsent, hkept⟩ := h.clearOneshotMods
      have hrelease := hkept.unregisterMods (sideMods right mods)
        (fun howed => absurd hkept.mods howed)
      rw [hsent] at hrelease
      exact hrelease

theorem Kept.process {q : Qmk} (h : Kept nkro q.usb o) (disabled : Bool) (m : StickyMove)
    (hspares : q.usb.oneshotMods ≠ 0 → m.spares disabled q.usb) :
    Leads nkro q.usb.sent (o.move disabled m) (m.process disabled q).usb := by
  cases m with
  | key pressed tapCount action => exact h.processAction disabled pressed tapCount action hspares
  | oneshot pressed tapCount right mods =>
    exact h.processOneshotMods disabled pressed tapCount right mods hspares

end Owed

/-! ### Runs -/

open StepRun

/-- The reports a press or a release sends. -/
def reportsOf (disabled : Bool) (q : Qmk) (m : StickyMove) : List HostReport :=
  (m.process disabled q).usb.sent.drop q.usb.sent.length

/-- The state, and what is owed by the taps and the reports. -/
def stickyStep (disabled nkro : Bool) (s : Qmk × Owed) (m : StickyMove) : Qmk × Owed :=
  (m.process disabled s.1, (s.2.move disabled m).hearAll nkro (reportsOf disabled s.1 m))

/-- Nothing pressed, nothing sent, nothing owed. -/
def stickyStart (nkro : Bool) (layers : Layers) (config : KeymapConfig) : Qmk × Owed :=
  ({ usb := Usb.init nkro, layers, config }, { mods := 0, last := Report.empty })

/-- Throughout a run the one-shot modifiers are what is owed to the next key, and
    every report carries them until one adds a key, that one included. -/
structure OneShotModsLaw (disabled nkro : Bool) (start : Qmk × Owed) (moves : List StickyMove) :
    Prop where
  pending : ∀ before, before <+: moves →
    (run (stickyStep disabled nkro) start before).1.usb.oneshotMods =
      (run (stickyStep disabled nkro) start before).2.mods
  carried : ∀ before m, before ++ [m] <+: moves →
    ((run (stickyStep disabled nkro) start before).2.move disabled m).Carried nkro
      (reportsOf disabled (run (stickyStep disabled nkro) start before).1 m)

/-- While modifiers are owed, every press and release spares them. -/
def SparesOwed (disabled : Bool) (s : Qmk × Owed) (m : StickyMove) : Prop :=
  s.1.usb.oneshotMods ≠ 0 → m.spares disabled s.1.usb = true

instance (disabled : Bool) (s : Qmk × Owed) (m : StickyMove) :
    Decidable (SparesOwed disabled s m) :=
  inferInstanceAs (Decidable (_ → _))

theorem stickyStep_kept {disabled nkro : Bool} {s : Qmk × Owed} (h : s.2.Kept nkro s.1.usb)
    (m : StickyMove) (hspares : SparesOwed disabled s m) :
    (s.2.move disabled m).Carried nkro (reportsOf disabled s.1 m) ∧
      (stickyStep disabled nkro s m).2.Kept nkro (stickyStep disabled nkro s m).1.usb := by
  obtain ⟨reports, hsent, hcarried, hkept⟩ := h.process disabled m hspares
  have hreports : reportsOf disabled s.1 m = reports := by
    unfold reportsOf
    rw [hsent, List.drop_left]
  unfold stickyStep
  rw [hreports]
  exact ⟨hcarried, hkept⟩

theorem stickyStart_kept (nkro : Bool) (layers : Layers) (config : KeymapConfig) :
    (stickyStart nkro layers config).2.Kept nkro (stickyStart nkro layers config).1.usb :=
  ⟨rfl, rfl, fun _ => rfl⟩

/-- Every run that spares what is owed. -/
theorem oneshot_mods_law (disabled nkro : Bool) (layers : Layers) (config : KeymapConfig)
    (moves : List StickyMove)
    (h : Along (stickyStep disabled nkro) (SparesOwed disabled) (stickyStart nkro layers config)
      moves) : OneShotModsLaw disabled nkro (stickyStart nkro layers config) moves := by
  have hkept : ∀ before, before <+: moves →
      (run (stickyStep disabled nkro) (stickyStart nkro layers config) before).2.Kept nkro
        (run (stickyStep disabled nkro) (stickyStart nkro layers config) before).1.usb := by
    rintro before ⟨after, rfl⟩
    exact run_invariant_along _ _ (fun s : Qmk × Owed => s.2.Kept nkro s.1.usb)
      (fun s m hs hspares => (stickyStep_kept hs m hspares).2) before _
      (stickyStart_kept nkro layers config) ((along_append _ _ before after _).mp h).1
  constructor
  · intro before hbefore
    exact (hkept before hbefore).mods
  · intro before m hbefore
    have hprefix : before <+: moves := (List.prefix_append before [m]).trans hbefore
    -- The step after `before` is one of those that spare what is owed.
    obtain ⟨after, rfl⟩ := hbefore
    rw [List.append_assoc, along_append] at h
    exact (stickyStep_kept (hkept before hprefix) m h.2.1).1

/-- A key is held, shift is tapped, and another key is pressed and released. -/
def heldAndTapped : List StickyMove :=
  [.key true 0 (.mods false 0 0x04), .oneshot true 1 false 2, .oneshot false 1 false 2,
    .key true 0 (.mods false 0 0x05), .key false 0 (.mods false 0 0x05)]

theorem oneshot_mods_law_typed :
    Along (stickyStep false false) (SparesOwed false)
        (stickyStart false Layers.init KeymapConfig.default) heldAndTapped ∧
      OneShotModsLaw false false (stickyStart false Layers.init KeymapConfig.default)
        heldAndTapped :=
  ⟨by decide +kernel, oneshot_mods_law false false _ _ heldAndTapped (by decide +kernel)⟩

/-- Two keys are held when shift is tapped, and one of them is released: the
    report with the other has spent the shift. -/
theorem oneshot_mods_broken :
    ¬ ∀ (disabled nkro : Bool) (layers : Layers) (config : KeymapConfig)
      (moves : List StickyMove),
        OneShotModsLaw disabled nkro (stickyStart nkro layers config) moves := by
  intro h
  have hpending := (h false false Layers.init KeymapConfig.default
    [.key true 0 (.mods false 0 0x04), .key true 0 (.mods false 0 0x05), .oneshot true 1 false 2,
      .oneshot false 1 false 2, .key false 0 (.mods false 0 0x04)]).pending _ (List.prefix_refl _)
  exact absurd hpending (by decide +kernel)

end K530
