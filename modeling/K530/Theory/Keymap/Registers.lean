import K530.Keymap.Replay
import K530.Quantum.KeymapHost
import K530.Theory.Keymap.Playback

/-!
# What Calls Register

The usages of a call, and that they are all a call can show the host.

The calls of a key event and of its replay are compared by their usages alone,
so three things have to be right about them. Two codes never have the same
usage, which makes the comparison of low bytes one of codes. What the host sees
after a call it has seen before, or it is a usage of the call. And the calls of
a played event are what playback does on the USB side, so a whole macro shows
the host nothing but what the replays of its keycodes register.

## Main definitions

* `Usb.Shows`: The host sees it as down, or has been sent it.

## Theorems

* `codeUsage?_injective`: Two codes never look the same to the host.
* `registers_replay`: What a replay registers.
-/

namespace K530

open HidCall StepRun

/-! ### What calls register -/

def Usage.code : Usage → Byte
  | key code => code
  | modifier code => code
  | system usage => if usage = 0x81 then 0xA5 else if usage = 0x82 then 0xA6 else 0xA7
  | consumer usage => BitVec.ofNat 8 (0xA8 + consumerUsages.idxOf usage)
  | tracked code => code

theorem code_usage : ∀ code : Byte,
    (codeUsage? code).all (fun usage => usage.code == code) = true ∧
      (isMod code → codeUsage? code = some (.modifier code)) ∧
      (code ∈ modifierCodes ↔ isMod code) := by
  decide +kernel

theorem codeUsage?_injective (a b : Byte) (usage : Usage) (ha : codeUsage? a = some usage)
    (hb : codeUsage? b = some usage) : a = b := by
  have hcodeA := (code_usage a).1
  have hcodeB := (code_usage b).1
  rw [ha, Option.all_some, beq_iff_eq] at hcodeA
  rw [hb, Option.all_some, beq_iff_eq] at hcodeB
  exact hcodeA.symm.trans hcodeB

theorem codeUsage?_not_tracked (code other : Byte) : codeUsage? code ≠ some (.tracked other) := by
  unfold codeUsage?
  repeat' split
  all_goals simp

theorem codeUsage?_modifier (code : Byte) (h : isMod code) :
    codeUsage? code = some (.modifier code) :=
  (code_usage code).2.1 h

theorem mem_modifierCodes (code : Byte) : code ∈ modifierCodes ↔ isMod code :=
  (code_usage code).2.2

theorem mem_modUsages (mods : Byte) (usage : Usage) :
    usage ∈ modUsages mods ↔
      ∃ code, isMod code ∧ hasMod mods code ∧ usage = .modifier code := by
  unfold modUsages
  simp only [List.mem_map, List.mem_filter, mem_modifierCodes]
  constructor
  · rintro ⟨code, ⟨hmod, hhas⟩, rfl⟩
    exact ⟨code, hmod, hhas, rfl⟩
  · rintro ⟨code, hmod, hhas, rfl⟩
    exact ⟨code, ⟨hmod, hhas⟩, rfl⟩

theorem modUsages_none : modUsages 0 = [] := by
  decide

theorem codeUsage?_mem_modUsages (mods code : Byte) (usage : Usage)
    (h : codeUsage? code = some usage) :
    usage ∈ modUsages mods ↔ isMod code ∧ hasMod mods code := by
  rw [mem_modUsages]
  constructor
  · rintro ⟨other, hmod, hhas, rfl⟩
    have hsame := codeUsage?_injective code other _ h (codeUsage?_modifier other hmod)
    rw [hsame]
    exact ⟨hmod, hhas⟩
  · rintro ⟨hmod, hhas⟩
    rw [codeUsage?_modifier code hmod] at h
    exact ⟨code, hmod, hhas, (Option.some.inj h).symm⟩

namespace HidCall

theorem registers_nil (usage : Usage) : ¬ Registers [] usage := by
  rintro ⟨call, hmem, -⟩
  exact List.not_mem_nil hmem

theorem registers_cons (call : HidCall) (calls : List HidCall) (usage : Usage) :
    Registers (call :: calls) usage ↔ usage ∈ call.usages ∨ Registers calls usage := by
  unfold Registers
  simp only [List.mem_cons, exists_eq_or_imp]

theorem registers_append (calls others : List HidCall) (usage : Usage) :
    Registers (calls ++ others) usage ↔ Registers calls usage ∨ Registers others usage := by
  unfold Registers
  simp only [List.mem_append, or_and_right, exists_or]

theorem registers_singleton (call : HidCall) (usage : Usage) :
    Registers [call] usage ↔ usage ∈ call.usages := by
  rw [registers_cons, or_iff_left (registers_nil usage)]

theorem mem_registerCode (code : Byte) (usage : Usage) :
    usage ∈ (registerCode code).usages ↔ codeUsage? code = some usage := by
  unfold usages
  exact Option.mem_toList

end HidCall

namespace Setting

theorem registers_mods (weak : Bool) (mods code : Byte) (usage : Usage) :
    Registers [if weak then registerMods mods else registerWeakMods mods, registerCode code]
        usage ↔
      usage ∈ modUsages mods ∨ codeUsage? code = some usage := by
  rw [registers_cons, registers_singleton, mem_registerCode]
  cases weak <;> exact Iff.rfl

theorem registers_replay (s : Setting) (keycode : Keycode) (usage : Usage) :
    Registers (s.replay keycode) usage ↔
      s.btOn = false ∧ (usage ∈ modUsages (Usb.extractModBits keycode) ∨
          codeUsage? (lowByte keycode) = some usage) ∨
        keycode ≤ 0xFF ∧ usage = .tracked (lowByte keycode) := by
  have htrack : Registers (btTrackBasicKeycode keycode true) usage ↔
      keycode ≤ 0xFF ∧ usage = .tracked (lowByte keycode) := by
    unfold btTrackBasicKeycode
    by_cases hbasic : keycode ≤ 0xFF
    · rw [if_pos ⟨rfl, hbasic⟩, registers_singleton, and_iff_right hbasic]
      exact List.mem_singleton
    · rw [if_neg (fun hc => hbasic hc.2)]
      exact iff_of_false (registers_nil usage) (fun hc => hbasic hc.1)
  have hrelease : s.playEvent keycode false = [] := by
    unfold playEvent btTrackBasicKeycode
    rw [Bool.and_false, if_neg Bool.false_ne_true, if_neg (fun hc => Bool.false_ne_true hc.1)]
    rfl
  unfold replay
  rw [hrelease, List.append_nil, playEvent, Bool.and_true, registers_append, htrack]
  refine or_congr_left ?_
  cases s.btOn with
  | true => exact iff_of_false (registers_nil usage) (fun hc => Bool.noConfusion hc.1)
  | false =>
    rw [Bool.not_false, if_pos rfl, and_iff_right rfl, registerCode16, registers_mods]

end Setting

/-! ### The calls on the USB side -/

namespace Usb

def Shows (u : Usb) : Usage → Prop
  | .key code => u.Pressed code
  | .modifier code => isMod code = true ∧ hasMod (u.realMods ||| u.weakMods) code = true
  -- the usage 0 is a release
  | .system usage => usage ≠ 0 ∧ .system usage ∈ u.sent
  | .consumer usage => usage ≠ 0 ∧ .consumer usage ∈ u.sent
  | .tracked _ => False

theorem sendKeyboardReport_sent (u : Usb) :
    ∃ report, u.sendKeyboardReport.sent = u.sent ++ [.keyboard report] := by
  unfold sendKeyboardReport
  dsimp only
  split <;> exact ⟨_, rfl⟩

theorem mem_sent_sendKeyboardReport (u : Usb) (other : HostReport)
    (h : ∀ report, other ≠ .keyboard report) :
    other ∈ u.sendKeyboardReport.sent ↔ other ∈ u.sent := by
  obtain ⟨report, hsent⟩ := sendKeyboardReport_sent u
  rw [hsent, List.mem_append, List.mem_singleton]
  exact or_iff_left (h report)

theorem mem_sent_registerCode (code : Byte) (u : Usb) (other : HostReport)
    (h : ∀ report, other ≠ .keyboard report) (hmem : other ∈ (u.registerCode code).sent) :
    other ∈ u.sent ∨
      (∃ usage, other = .system usage ∧ codeUsage? code = some (.system usage)) ∨
      ∃ usage, other = .consumer usage ∧ codeUsage? code = some (.consumer usage) := by
  unfold registerCode at hmem
  unfold codeUsage?
  by_cases hzero : code = 0
  · rw [if_pos hzero] at hmem
    exact Or.inl hmem
  rw [if_neg hzero] at hmem
  by_cases hkey : isKey code
  · rw [if_pos hkey] at hmem
    dsimp only at hmem
    rw [mem_sent_sendKeyboardReport _ other h] at hmem
    split at hmem
    · exact Or.inl ((mem_sent_sendKeyboardReport (u.delKey code) other h).mp hmem)
    · exact Or.inl hmem
  rw [if_neg hkey] at hmem ⊢
  by_cases hmod : isMod code
  · rw [if_pos hmod] at hmem
    exact Or.inl ((mem_sent_sendKeyboardReport (u.addMods (modBit code)) other h).mp hmem)
  rw [if_neg hmod] at hmem ⊢
  by_cases hsystem : isSystem code
  · rw [if_pos hsystem] at hmem ⊢
    rcases List.mem_append.mp hmem with hold | hnew
    · exact Or.inl hold
    · exact Or.inr (Or.inl ⟨_, List.mem_singleton.mp hnew, rfl⟩)
  rw [if_neg hsystem] at hmem ⊢
  by_cases hconsumer : isConsumer code
  · rw [if_pos hconsumer] at hmem ⊢
    rcases List.mem_append.mp hmem with hold | hnew
    · exact Or.inl hold
    · exact Or.inr (Or.inr ⟨_, List.mem_singleton.mp hnew, rfl⟩)
  · rw [if_neg hconsumer] at hmem
    exact Or.inl hmem

theorem registerMods_spec (mods : Byte) (u : Usb) (h : u.Settled) :
    u.Became (u.registerMods mods) (u.realMods ||| mods) u.weakMods u.Pressed := by
  unfold registerMods
  by_cases hmods : mods = 0
  · subst hmods
    rw [if_neg (fun hc => hc rfl), or_noMods]
    exact became_self u h
  · rw [if_pos hmods]
    exact became_send u (u.addMods mods) _ rfl h.macroMods h.oneshotMods (fun _ => Iff.rfl)

theorem mem_sent_unregisterCode (code : Byte) (u : Usb) (other : HostReport)
    (h : ∀ report, other ≠ .keyboard report) (hsystem : other ≠ .system 0)
    (hconsumer : other ≠ .consumer 0) (hmem : other ∈ (u.unregisterCode code).sent) :
    other ∈ u.sent := by
  unfold unregisterCode at hmem
  split at hmem
  · exact hmem
  split at hmem
  · exact (mem_sent_sendKeyboardReport (u.delKey code) other h).mp hmem
  split at hmem
  · exact (mem_sent_sendKeyboardReport (u.delMods (modBit code)) other h).mp hmem
  split at hmem
  · exact (List.mem_append.mp hmem).resolve_right (fun hc => hsystem (List.mem_singleton.mp hc))
  split at hmem
  · exact (List.mem_append.mp hmem).resolve_right (fun hc => hconsumer (List.mem_singleton.mp hc))
  · exact hmem

theorem mem_sent_unregisterCode16 (keycode : Keycode) (u : Usb) (other : HostReport)
    (h : ∀ report, other ≠ .keyboard report) (hsystem : other ≠ .system 0)
    (hconsumer : other ≠ .consumer 0) (hmem : other ∈ (u.unregisterCode16 keycode).sent) :
    other ∈ u.sent := by
  rw [unregisterCode16_eq, unregisterWeakMods] at hmem
  refine mem_sent_unregisterCode (lowByte keycode) u other h hsystem hconsumer ?_
  split at hmem
  · exact (mem_sent_sendKeyboardReport
      ((u.unregisterCode (lowByte keycode)).delWeakMods (extractModBits keycode)) other h).mp hmem
  · exact hmem

theorem shows_unregisterCode16 (keycode : Keycode) (u : Usb) (h : u.Settled) (usage : Usage)
    (hshows : (u.unregisterCode16 keycode).Shows usage) : u.Shows usage := by
  have hspec := unregisterCode16_spec keycode u h
  cases usage with
  | key code => exact ((hspec.keys code).mp hshows).1
  | modifier code =>
    refine ⟨hshows.1, ?_⟩
    have hmods := hshows.2
    rw [hspec.realMods, hspec.weakMods] at hmods
    unfold hasMod at hmods ⊢
    rw [BitVec.getLsbD_or, BitVec.getLsbD_and, BitVec.getLsbD_and, Bool.or_eq_true,
      Bool.and_eq_true, Bool.and_eq_true] at hmods
    rw [BitVec.getLsbD_or, Bool.or_eq_true]
    exact hmods.imp And.left And.left
  | system usage =>
    refine ⟨hshows.1, mem_sent_unregisterCode16 keycode u _ (by simp) ?_ (by simp) hshows.2⟩
    exact fun hc => hshows.1 (HostReport.system.inj hc)
  | consumer usage =>
    refine ⟨hshows.1, mem_sent_unregisterCode16 keycode u _ (by simp) (by simp) ?_ hshows.2⟩
    exact fun hc => hshows.1 (HostReport.consumer.inj hc)
  | tracked code => exact hshows

end Usb

namespace HidCall

def Adds (call : HidCall) : Prop := ∀ key, call = .addKey key → isKey key = true

theorem onUsb_settled (call : HidCall) (u : Usb) (h : u.Settled) (hadds : call.Adds) :
    (call.onUsb u).Settled := by
  cases call with
  | registerCode code => exact (Usb.registerCode_spec code u h).settled
  | registerMods mods => exact (Usb.registerMods_spec mods u h).settled
  | registerWeakMods mods => exact (Usb.registerWeakMods_spec mods u h).1.settled
  | addKey key => exact Usb.sendKeyboardReport_settled _ h.macroMods h.oneshotMods
  | systemSend usage => exact ⟨h.macroMods, h.oneshotMods, h.shown⟩
  | consumerSend usage => exact ⟨h.macroMods, h.oneshotMods, h.shown⟩
  | btTrack keycode => exact h

theorem shows_modifier (u v : Usb) (added code : Byte)
    (hmods : v.realMods ||| v.weakMods = u.realMods ||| u.weakMods ||| added)
    (h : v.Shows (.modifier code)) : u.Shows (.modifier code) ∨ hasMod added code := by
  obtain ⟨hmod, hhas⟩ := h
  rw [hmods] at hhas
  unfold hasMod at hhas ⊢
  rw [BitVec.getLsbD_or, Bool.or_eq_true] at hhas
  exact hhas.imp (fun hold => ⟨hmod, hold⟩) id

theorem shows_mods (u v : Usb) (mods : Byte) (usage : Usage)
    (hkeys : ∀ key, v.Pressed key ↔ u.Pressed key)
    (hmods : v.realMods ||| v.weakMods = u.realMods ||| u.weakMods ||| mods)
    (hsent : ∀ other, (∀ report, other ≠ .keyboard report) → other ∈ v.sent → other ∈ u.sent)
    (h : v.Shows usage) : u.Shows usage ∨ usage ∈ modUsages mods := by
  cases usage with
  | key key => exact Or.inl ((hkeys key).mp h)
  | modifier code =>
    refine (shows_modifier u v mods code hmods h).imp id (fun hhas => ?_)
    exact (mem_modUsages mods _).mpr ⟨code, h.1, hhas, rfl⟩
  | system usage => exact Or.inl ⟨h.1, hsent _ (by simp) h.2⟩
  | consumer usage => exact Or.inl ⟨h.1, hsent _ (by simp) h.2⟩
  | tracked code => exact h.elim

theorem shows_registerCode (code : Byte) (u : Usb) (h : u.Settled) (usage : Usage)
    (hshows : ((HidCall.registerCode code).onUsb u).Shows usage) :
    u.Shows usage ∨ usage ∈ (HidCall.registerCode code).usages := by
  have hspec := Usb.registerCode_spec code u h
  rw [mem_registerCode]
  cases usage with
  | key key =>
    rcases (hspec.keys key).mp hshows with hold | ⟨hkey, -, rfl⟩
    · exact Or.inl hold
    · refine Or.inr ?_
      unfold codeUsage?
      rw [if_pos hkey]
  | modifier other =>
    refine (shows_modifier u _ (Usb.modMask code) other ?_ hshows).imp id (fun hhas => ?_)
    · unfold onUsb
      rw [hspec.realMods, hspec.weakMods, BitVec.or_assoc, BitVec.or_assoc,
        BitVec.or_comm (Usb.modMask code)]
    · have hnew := (Usb.hasMod_addMask 0 code other hshows.1).mp
        (by rwa [BitVec.or_comm, Usb.or_noMods])
      have hsame : other = code := hnew.resolve_left (by unfold hasMod; simp)
      rw [← hsame]
      exact codeUsage?_modifier other hshows.1
  | system usage =>
    rcases Usb.mem_sent_registerCode code u _ (by simp) hshows.2 with
      hold | ⟨_, heq, hcode⟩ | ⟨_, heq, -⟩
    · exact Or.inl ⟨hshows.1, hold⟩
    · rw [HostReport.system.inj heq]
      exact Or.inr hcode
    · cases heq
  | consumer usage =>
    rcases Usb.mem_sent_registerCode code u _ (by simp) hshows.2 with
      hold | ⟨_, heq, -⟩ | ⟨_, heq, hcode⟩
    · exact Or.inl ⟨hshows.1, hold⟩
    · cases heq
    · rw [HostReport.consumer.inj heq]
      exact Or.inr hcode
  | tracked code => exact hshows.elim

theorem shows_addKey (key : Byte) (u : Usb) (h : u.Settled)
    (hadds : (HidCall.addKey key).Adds) (usage : Usage)
    (hshows : ((HidCall.addKey key).onUsb u).Shows usage) :
    u.Shows usage ∨ usage ∈ (HidCall.addKey key).usages := by
  have hspec := Usb.became_send u (u.addKey key) _ rfl h.macroMods h.oneshotMods
    (fun other => Usb.pressed_addKey u key other (hadds key rfl))
  have hsent : ∀ other, (∀ report, other ≠ .keyboard report) →
      other ∈ ((HidCall.addKey key).onUsb u).sent → other ∈ u.sent :=
    fun other hother => (Usb.mem_sent_sendKeyboardReport (u.addKey key) other hother).mp
  cases usage with
  | key other =>
    rcases (hspec.keys other).mp hshows with hold | ⟨-, rfl⟩
    · exact Or.inl hold
    · exact Or.inr (List.mem_singleton_self _)
  | modifier code =>
    refine Or.inl ⟨hshows.1, ?_⟩
    have hmods := hshows.2
    unfold onUsb at hmods
    rwa [hspec.realMods, hspec.weakMods] at hmods
  | system usage => exact Or.inl ⟨hshows.1, hsent _ (by simp) hshows.2⟩
  | consumer usage => exact Or.inl ⟨hshows.1, hsent _ (by simp) hshows.2⟩
  | tracked code => exact hshows.elim

theorem shows_other (u : Usb) (sent : HostReport) (usage : Usage)
    (hshows : ({ u with sent := u.sent ++ [sent] } : Usb).Shows usage) :
    u.Shows usage ∨ (∃ value, usage = .system value ∧ sent = .system value) ∨
      ∃ value, usage = .consumer value ∧ sent = .consumer value := by
  cases usage with
  | system value =>
    rcases List.mem_append.mp hshows.2 with hold | hnew
    · exact Or.inl ⟨hshows.1, hold⟩
    · exact Or.inr (Or.inl ⟨value, rfl, (List.mem_singleton.mp hnew).symm⟩)
  | consumer value =>
    rcases List.mem_append.mp hshows.2 with hold | hnew
    · exact Or.inl ⟨hshows.1, hold⟩
    · exact Or.inr (Or.inr ⟨value, rfl, (List.mem_singleton.mp hnew).symm⟩)
  | key code => exact Or.inl hshows
  | modifier code => exact Or.inl hshows
  | tracked code => exact hshows.elim

theorem shows_onUsb (call : HidCall) (u : Usb) (h : u.Settled) (hadds : call.Adds) (usage : Usage)
    (hshows : (call.onUsb u).Shows usage) : u.Shows usage ∨ usage ∈ call.usages := by
  cases call with
  | registerCode code => exact shows_registerCode code u h usage hshows
  | registerMods mods =>
    have hspec := Usb.registerMods_spec mods u h
    refine shows_mods u _ mods usage hspec.keys ?_ (fun other hother hmem => ?_) hshows
    · rw [hspec.realMods, hspec.weakMods, BitVec.or_assoc, BitVec.or_assoc, BitVec.or_comm mods]
    · unfold onUsb Usb.registerMods at hmem
      split at hmem
      · exact (Usb.mem_sent_sendKeyboardReport (u.addMods mods) other hother).mp hmem
      · exact hmem
  | registerWeakMods mods =>
    have hspec := (Usb.registerWeakMods_spec mods u h).1
    refine shows_mods u _ mods usage hspec.keys ?_ (fun other hother hmem => ?_) hshows
    · rw [hspec.realMods, hspec.weakMods, BitVec.or_assoc]
    · unfold onUsb Usb.registerWeakMods at hmem
      split at hmem
      · exact (Usb.mem_sent_sendKeyboardReport (u.addWeakMods mods) other hother).mp hmem
      · exact hmem
  | addKey key => exact shows_addKey key u h hadds usage hshows
  | systemSend sent =>
    refine (shows_other u (.system sent) usage hshows).imp id ?_
    rintro (⟨value, rfl, heq⟩ | ⟨value, rfl, heq⟩)
    · rw [HostReport.system.inj heq]
      exact List.mem_singleton_self _
    · cases heq
  | consumerSend sent =>
    refine (shows_other u (.consumer sent) usage hshows).imp id ?_
    rintro (⟨value, rfl, heq⟩ | ⟨value, rfl, heq⟩)
    · cases heq
    · rw [HostReport.consumer.inj heq]
      exact List.mem_singleton_self _
  | btTrack keycode => exact Or.inl hshows

theorem runAll_settled (calls : List HidCall) (u : Usb) (h : u.Settled)
    (hadds : ∀ call ∈ calls, call.Adds) : (runAll calls u).Settled := by
  induction calls generalizing u with
  | nil => exact h
  | cons call calls ih =>
    exact ih (call.onUsb u) (onUsb_settled call u h (hadds call List.mem_cons_self))
      (fun other hother => hadds other (List.mem_cons_of_mem _ hother))

theorem shows_runAll (calls : List HidCall) (u : Usb) (h : u.Settled)
    (hadds : ∀ call ∈ calls, call.Adds) (usage : Usage)
    (hshows : (runAll calls u).Shows usage) : u.Shows usage ∨ Registers calls usage := by
  induction calls generalizing u with
  | nil => exact Or.inl hshows
  | cons call calls ih =>
    have hcall := hadds call List.mem_cons_self
    have hrest := ih (call.onUsb u) (onUsb_settled call u h hcall)
      (fun other hother => hadds other (List.mem_cons_of_mem _ hother)) hshows
    rw [registers_cons]
    rcases hrest with hbefore | hlater
    · exact (shows_onUsb call u h hcall usage hbefore).imp id Or.inl
    · exact Or.inr (Or.inr hlater)

end HidCall

namespace Setting

theorem runAll_btTrack (calls : List HidCall) (keycode : Keycode) (pressed : Bool) (u : Usb) :
    runAll (calls ++ btTrackBasicKeycode keycode pressed) u = runAll calls u := by
  unfold runAll btTrackBasicKeycode
  rw [List.foldl_append]
  split <;> rfl

theorem playEvent_calls (s : Setting) (w : World) (e : MacroEvent) (h : s.btOn = w.btEnabled)
    (hpressed : e.pressed) :
    (World.playEvent w e).qmk.usb = runAll (s.playEvent e.keycode e.pressed) w.qmk.usb := by
  unfold playEvent
  rw [runAll_btTrack, hpressed, Bool.and_true, h]
  cases hbt : w.btEnabled with
  | true =>
    unfold World.playEvent
    rw [World.btTrackBasicKeycode_qmk, hbt]
    rfl
  | false =>
    rw [playEvent_usb_off w e hbt, hpressed, Bool.not_false, if_pos rfl, if_pos rfl]
    unfold registerCode16 Usb.registerCode16 runAll
    by_cases hplain : Usb.plainModOrNo e.keycode
    · rw [if_pos hplain, if_pos hplain]
      rfl
    · rw [if_neg hplain, if_neg hplain]
      rfl

theorem modsCalls_calls (mods code : Byte) (u : Usb) :
    Qmk.processMods true mods code u = runAll (modsCalls mods code) u := by
  unfold Qmk.processMods modsCalls runAll
  rw [if_pos rfl]
  by_cases hplain : (isMod code || code == 0) = true
  · rw [if_pos hplain, if_pos hplain]
    rfl
  · rw [if_neg hplain, if_neg hplain]
    rfl

theorem playEvent_shows (s : Setting) (w : World) (e : MacroEvent) (hbt : s.btOn = w.btEnabled)
    (h : w.qmk.usb.Settled) :
    (World.playEvent w e).qmk.usb.Settled ∧
      ∀ usage, (World.playEvent w e).qmk.usb.Shows usage →
        w.qmk.usb.Shows usage ∨ e.pressed ∧ Registers (s.replay e.keycode) usage := by
  cases hpressed : e.pressed with
  | true =>
    have hadds : ∀ call ∈ s.playEvent e.keycode true, call.Adds := by
      intro call hcall key hkey
      unfold playEvent registerCode16 btTrackBasicKeycode at hcall
      rw [hkey] at hcall
      repeat' split at hcall
      all_goals simp at hcall
    rw [playEvent_calls s w e hbt hpressed, hpressed]
    refine ⟨runAll_settled _ _ h hadds, fun usage hshows => ?_⟩
    refine (shows_runAll _ _ h hadds usage hshows).imp id (fun hregisters => ⟨rfl, ?_⟩)
    exact (registers_append _ _ usage).mpr (Or.inl hregisters)
  | false =>
    cases hon : w.btEnabled with
    | true =>
      rw [World.playEvent_qmk_on w e hon]
      exact ⟨h, fun usage hshows => Or.inl hshows⟩
    | false =>
      rw [playEvent_usb_off w e hon, hpressed, if_neg Bool.false_ne_true]
      exact ⟨(Usb.unregisterCode16_spec e.keycode _ h).settled,
        fun usage hshows => Or.inl (Usb.shows_unregisterCode16 e.keycode _ h usage hshows)⟩

theorem foldl_playEvent_shows (s : Setting) (events : List MacroEvent) (w : World)
    (hbt : s.btOn = w.btEnabled) (h : w.qmk.usb.Settled) (usage : Usage)
    (hshows : (events.foldl World.playEvent w).qmk.usb.Shows usage) :
    w.qmk.usb.Shows usage ∨
      ∃ e ∈ events, e.pressed ∧ Registers (s.replay e.keycode) usage := by
  induction events generalizing w with
  | nil => exact Or.inl hshows
  | cons e events ih =>
    obtain ⟨hsettled, hone⟩ := playEvent_shows s w e hbt h
    have hbt' : s.btOn = (World.playEvent w e).btEnabled := by
      unfold World.btEnabled at hbt ⊢
      rw [World.playEvent_driver]
      exact hbt
    rcases ih (World.playEvent w e) hbt' hsettled hshows with hbefore | ⟨later, hmem, hlater⟩
    · exact (hone usage hbefore).imp id (fun hnew => ⟨e, List.mem_cons_self, hnew⟩)
    · exact Or.inr ⟨later, List.mem_cons_of_mem _ hmem, hlater⟩

end Setting

namespace World

/-- What the host sees after a slot has been played it has seen before, or Bluetooth is off and
    a press that is stored in the slot has it, as a modifier or as its low byte. -/
theorem playback_shows_stored (config : KeymapConfig) (nkro rgbEnabled : Bool) (r : Readings)
    (events : List Event) (now : BitVec 32) (record : KeyRecord) (slot : Fin 6) (w : World)
    (hw : w = run react (powerOn config nkro rgbEnabled r) events)
    (hplay : Keymap.playSlot? (getRecordKeycode record w.qmk) = some slot)
    (hpressed : record.pressed = true) (usage : Usage)
    (hshows : (processRecord now record w).qmk.usb.Shows usage) :
    w.qmk.usb.Shows usage ∨ w.btEnabled = false ∧ ∃ e ∈ w.recorder.stored slot, e.pressed ∧
      (usage ∈ modUsages (Usb.extractModBits e.keycode) ∨
        codeUsage? (lowByte e.keycode) = some usage) := by
  have hsound : w.Sound := by
    rw [hw]
    exact run_invariant react Sound react_sound events _
      (powerOn_sound config nkro rgbEnabled r)
  have husb : (loopStart now record w).qmk.usb = w.qmk.usb := by
    unfold loopStart
    rw [beforeSwitch_qmk, remembered_qmk, (rememberLayer_frame record w.qmk).1]
  have hbt : (loopStart now record w).btEnabled = w.btEnabled := by
    unfold btEnabled loopStart
    rw [beforeSwitch_driver, remembered_driver]
  -- of the setting only the link matters to a replay
  let s : Setting :=
    { btOn := w.btEnabled, config := config, oneshotDisable := false,
      functions := fun _ => ActionCode.no, mods := 0, oneshotMods := 0, dynamicRecording := false,
      dynamicMacro := fun _ => [], slots := fun _ => [], quick := false, effectMax := 2,
      light := RgbMatrix.init (RgbConfig.default 1) }
  rw [processRecord_play now record w slot hplay hpressed] at hshows
  have hfold := Setting.foldl_playEvent_shows s _ _ hbt.symm (by
    rw [husb]
    exact hsound.settled) usage hshows
  rw [husb] at hfold
  refine hfold.imp id (fun ⟨e, he, hdown, hregisters⟩ => ?_)
  rcases (Setting.registers_replay s e.keycode usage).mp hregisters with ⟨hoff, husage⟩ | ⟨_, rfl⟩
  · exact ⟨hoff, e, he, hdown, husage⟩
  · -- the tracker is not what a host on the wire sees
    exact absurd hshows id

theorem playback_shows_stored_letter :
    (processRecord 0 playKey afterRecording).qmk.usb.Shows (.key 0x04) ∧
      (afterRecording.qmk.usb.Shows (.key 0x04) ∨ afterRecording.btEnabled = false ∧
        ∃ e ∈ afterRecording.recorder.stored 0, e.pressed ∧
          (.key 0x04 ∈ modUsages (Usb.extractModBits e.keycode) ∨
            codeUsage? (lowByte e.keycode) = some (.key 0x04))) := by
  have hshows : (processRecord 0 playKey afterRecording).qmk.usb.Shows (.key 0x04) := by
    change Report.isKeyPressed _ _ _ = true
    decide +kernel
  exact ⟨hshows, playback_shows_stored KeymapConfig.default true true atRest stoppedWithKeyHeld 0
    playKey 0 afterRecording rfl afterRecording_idle.1 rfl _ hshows⟩

end World

end K530
