import K530.Quantum.KeymapHost
import K530.Theory.Keymap.Dispatch
import K530.Theory.Tapping.Lanes

/-!
# What a Held Key Has Done

Behind the tapping code a key types a code or turns a layer on, and its release
undoes what its press has done, if it is handed over in the same class and finds
the same action. It does find it, the layer of the press being remembered.

So whatever is pressed, set or on has been done by a key that is held, in its
class: `Supported`. It stays so while what is handed over fits, and when no key
is held there is nothing left on.

## Main definitions

* `HandedOver`: Records have been handed over and processed.

## Theorems

* `Outcome.handedOver`: Examining a record hands over what is known of here.
* `processAction_acted`: What executing an action changes.
-/

namespace K530

def TapHost.processAll {K H : Type} (P : TapHost K H) (host : H) (new : List (Handed K)) : H :=
  new.foldl (fun host g => (P.process host g.record).1) host

namespace TapState

variable {K H : Type}

/-! ### Records handed over -/

/-- Between two states some records have been handed over, key events or made-up
    releases, and the host has processed them. -/
structure HandedOver (P : TapHost K H) (s t : TapState K H) (new : List (Handed K)) : Prop where
  out : t.out = s.out ++ new
  host : t.host = P.processAll s.host new
  kinds : ∀ g ∈ new, g.isPhysical = true ∨ g.record.pressed = false

theorem handedOver_nil (P : TapHost K H) {s t : TapState K H} (hout : t.out = s.out)
    (hhost : t.host = s.host) : HandedOver P s t [] :=
  ⟨by rw [hout, List.append_nil], hhost, fun _ hg => absurd hg List.not_mem_nil⟩

theorem handedOver_one (P : TapHost K H) {s t : TapState K H} (g : Handed K)
    (hout : t.out = s.out ++ [g]) (hhost : t.host = (P.process s.host g.record).1)
    (hkind : g.isPhysical ∨ g.record.pressed = false) : HandedOver P s t [g] :=
  ⟨hout, hhost, fun g' hg => by
    rw [List.mem_singleton.mp hg]
    exact hkind⟩

theorem HandedOver.append {P : TapHost K H} {s t u : TapState K H} {xs ys : List (Handed K)}
    (h : HandedOver P s t xs) (h' : HandedOver P t u ys) : HandedOver P s u (xs ++ ys) where
  out := by rw [h'.out, h.out, List.append_assoc]
  host := by rw [h'.host, h.host, TapHost.processAll, TapHost.processAll, TapHost.processAll,
    List.foldl_append]
  kinds g hg := (List.mem_append.mp hg).elim (h.kinds g) (h'.kinds g)

theorem Cleared.handedOver {P : TapHost K H} {r : TapRecord K} {s t : TapState K H}
    (h : Cleared P r s t) : ∃ new, HandedOver P s t new := by
  rcases h with ⟨ht, _⟩ | ⟨tk, _, _, ht⟩
  · exact ⟨[], handedOver_nil P (by rw [ht]) (by rw [ht])⟩
  · exact ⟨_, handedOver_one P _ (by rw [ht]; rfl) (by rw [ht]; rfl) (Or.inr rfl)⟩

theorem Outcome.handedOver [DecidableEq K] {P : TapHost K H} {r : TapRecord K}
    {s : TapState K H} {e : Examined K H} (h : Outcome P r s e) :
    ∃ new, HandedOver P s e.state new := by
  cases h with
  | pass t hdecided ht hother hin hplain =>
    exact ⟨_, handedOver_one P { record := r, handedAs := .event } rfl rfl (Or.inl rfl)⟩
  | slip tk hundecided hin hkey hpressed htyped =>
    exact ⟨_, handedOver_one P { record := r, handedAs := .event } rfl rfl (Or.inl rfl)⟩
  | start t hpressed htap hdecided hin ht =>
    rcases ht.handedOver with ⟨gone, hgone⟩
    rcases start_cases P r t with hstart | ⟨i, w, _, _, _, _, _, _, _, hstart⟩
    · refine ⟨gone, ?_⟩
      rw [hstart]
      exact ⟨hgone.out, hgone.host, hgone.kinds⟩
    · refine ⟨gone ++ [{ record := markTap r, handedAs := .tappingKey }], ?_⟩
      rw [hstart]
      exact hgone.append (handedOver_one P _ rfl rfl (Or.inl rfl))
  | restart tk hpressed hreleased hin hkey => exact ⟨[], handedOver_nil P rfl rfl⟩
  | sequential tk hpressed hreleased hin hkey hcount halone =>
    exact ⟨_, handedOver_one P { record := { r with tap := nextTap tk.tap }, handedAs := .event }
      rfl rfl (Or.inl rfl)⟩
  | tapRelease tk hpressed htapped hkey =>
    exact ⟨_, handedOver_one P { record := { r with tap := tk.tap }, handedAs := .event } rfl rfl
      (Or.inl rfl)⟩
  | firstTap tk hpressed hundecided hin hkey =>
    exact ⟨_, handedOver_one P { record := markTap tk, handedAs := .tappingKey } rfl rfl
      (Or.inl rfl)⟩
  | settle tk hundecided hwhy =>
    exact ⟨_, handedOver_one P { record := tk, handedAs := .tappingKey } rfl rfl (Or.inl rfl)⟩
  | wait tk t hundecided hin ht hkey => exact ⟨[], handedOver_nil P rfl rfl⟩
  | forget tk hreleased hin => exact ⟨[], handedOver_nil P rfl rfl⟩

theorem processTick_handedOver (P : TapHost K H) (time : BitVec 16) (s : TapState K H) :
    ∃ new, HandedOver P s (s.processTick P time) new := by
  rcases processTick_cases P time s with h | ⟨tk, _, _, h⟩ | ⟨tk, _, _, h⟩
  · exact ⟨[], handedOver_nil P (by rw [h]) (by rw [h])⟩
  · exact ⟨_, handedOver_one P { record := tk, handedAs := .tappingKey } (by rw [h]; rfl)
      (by rw [h]; rfl) (Or.inl rfl)⟩
  · exact ⟨[], handedOver_nil P (by rw [h]) (by rw [h])⟩

end TapState

/-! ### What keys leave on -/

inductive Effect where
  /-- A key of the report -/
  | key (code : Byte)
  /-- A modifier -/
  | realMod (code : Byte)
  | layer (n : Nat)
  deriving DecidableEq

def Qmk.Shows (q : Qmk) : Effect → Prop
  | .key code => q.usb.Pressed code
  | .realMod code => isMod code = true ∧ hasMod q.usb.realMods code = true
  | .layer n => q.layers.state.getLsbD n = true

namespace Action

def types (tapped : Bool) : Action → Option Byte
  | .mods _ _ code => some code
  | .layerTapKey _ code => if tapped then some code else none
  | _ => none

/-- The layer an action turns on. -/
def turnsOn (tapped : Bool) : Action → Option Nat
  | .layerOnOff layer => some layer
  | .layerTapKey layer _ => if tapped then none else some layer
  | _ => none

def does (tapped : Bool) (a : Action) : Effect → Prop
  | .key code => isKey code = true ∧ a.types tapped = some code
  | .realMod code => isMod code = true ∧ a.types tapped = some code
  | .layer n => a.turnsOn tapped = some n

def Plain : Action → Prop
  | .mods right mask _ => right = false ∧ mask = 0
  | _ => True

theorem turnsOn_held (a : Action) (tapped : Bool) (n : Nat) (h : a.turnsOn tapped = some n) :
    a.turnsOn false = some n := by
  cases a with
  | mods right mods code => exact nomatch h
  | system usage => exact nomatch h
  | consumer usage => exact nomatch h
  | layerOnOff layer => exact h
  | layerTapKey layer code =>
    cases tapped with
    | true => exact nomatch h
    | false => exact h

end Action

/-! ### Executing an action -/

structure Acted (pressed tapped : Bool) (a : Action) (q q' : Qmk) : Prop where
  settled : q'.usb.Settled
  weakMods : q'.usb.weakMods = 0
  source : q'.layers.source = q.layers.source
  config : q'.config = q.config
  effects : ∀ e, q'.Shows e → if pressed then q.Shows e ∨ a.does tapped e
    else q.Shows e ∧ ¬ a.does tapped e

theorem acted_typed (pressed tapped : Bool) (a : Action) (code : Byte) (q : Qmk) (u : Usb)
    (hu : q.usb.Typed pressed code u) (hweak : q.usb.weakMods = 0)
    (htypes : a.types tapped = some code) (hturns : a.turnsOn tapped = none) :
    Acted pressed tapped a q { q with usb := u } := by
  have hlayer : ∀ n, ¬ a.does tapped (.layer n) := by
    intro n hn
    rw [Action.does, hturns] at hn
    exact nomatch hn
  cases pressed with
  | true =>
    rw [Usb.Typed, if_pos rfl] at hu
    refine ⟨hu.settled, hu.weakMods.trans hweak, rfl, rfl, fun e he => ?_⟩
    rw [if_pos rfl]
    cases e with
    | key other =>
      rcases (hu.keys other).mp he with he | ⟨hkey, _, heq⟩
      · exact Or.inl he
      · exact Or.inr ⟨heq ▸ hkey, heq ▸ htypes⟩
    | realMod other =>
      have hbit := he.2
      dsimp only at hbit
      rw [hu.realMods, Usb.hasMod_addMask _ _ _ he.1] at hbit
      rcases hbit with hbit | heq
      · exact Or.inl ⟨he.1, hbit⟩
      · exact Or.inr ⟨he.1, heq ▸ htypes⟩
    | layer n => exact Or.inl he
  | false =>
    rw [Usb.Typed, if_neg Bool.false_ne_true] at hu
    refine ⟨hu.settled, hu.weakMods.trans hweak, rfl, rfl, fun e he => ?_⟩
    rw [if_neg Bool.false_ne_true]
    cases e with
    | key other =>
      rcases (hu.keys other).mp he with ⟨hpressed, hnot⟩
      refine ⟨hpressed, fun hdoes => hnot ?_⟩
      have heq : code = other := Option.some.inj (htypes.symm.trans hdoes.2)
      exact ⟨heq ▸ hdoes.1, heq.symm⟩
    | realMod other =>
      have hbit := he.2
      dsimp only at hbit
      rw [hu.realMods, Usb.hasMod_delMask _ _ _ he.1] at hbit
      refine ⟨⟨he.1, hbit.1⟩, fun hdoes => hbit.2 ?_⟩
      exact (Option.some.inj (htypes.symm.trans hdoes.2)).symm
    | layer n => exact ⟨he, hlayer n⟩

theorem acted_sent (pressed tapped : Bool) (a : Action) (q : Qmk) (sent : List HostReport)
    (hs : q.usb.Settled) (hweak : q.usb.weakMods = 0) (htypes : a.types tapped = none)
    (hturns : a.turnsOn tapped = none) :
    Acted pressed tapped a q { q with usb := { q.usb with sent } } := by
  have hnot : ∀ e, ¬ a.does tapped e := by
    intro e he
    cases e with
    | key code => exact nomatch htypes.symm.trans he.2
    | realMod code => exact nomatch htypes.symm.trans he.2
    | layer n => exact nomatch hturns.symm.trans he
  have hbecame := Usb.became_sent q.usb hs sent q.usb.Pressed (fun _ => Iff.rfl)
  refine ⟨hbecame.settled, hweak, rfl, rfl, fun e he => ?_⟩
  have hsame : q.Shows e := by
    cases e with
    | key code => exact he
    | realMod code => exact he
    | layer n => exact he
  cases pressed with
  | true => exact Or.inl hsame
  | false => exact ⟨hsame, hnot e⟩

theorem acted_layer (pressed tapped : Bool) (a : Action) (layer : Nat) (q : Qmk)
    (hs : q.usb.Settled) (htypes : a.types tapped = none)
    (hturns : a.turnsOn tapped = some layer) :
    Acted pressed tapped a q (if pressed then q.layerOn layer else q.layerOff layer) := by
  have hnot : ∀ e, a.does tapped e → e = .layer layer := by
    intro e he
    cases e with
    | key code => exact nomatch htypes.symm.trans he.2
    | realMod code => exact nomatch htypes.symm.trans he.2
    | layer n => rw [Option.some.inj (hturns.symm.trans he)]
  -- of the wire, keys and real modifiers stay
  have hwire : ∀ state e, (∀ n, e ≠ .layer n) → (q.layerStateSet state).Shows e → q.Shows e := by
    intro state e he hshows
    have hchange := (World.layerStateSet_change state q hs).usb
    cases e with
    | key code => exact (hchange.keys code).mp hshows
    | realMod code =>
      refine ⟨hshows.1, ?_⟩
      rw [← hchange.realMods]
      exact hshows.2
    | layer n => exact absurd rfl (he n)
  cases pressed with
  | true =>
    have hchange := World.layerStateSet_change (q.layers.state ||| 1#32 <<< layer) q hs
    refine ⟨hchange.usb.settled, hchange.usb.weakMods, hchange.source, hchange.config,
      fun e he => ?_⟩
    rw [if_pos rfl] at he ⊢
    cases e with
    | layer n =>
      change (q.layers.state ||| 1#32 <<< layer).getLsbD n = true at he
      rw [BitVec.getLsbD_or, Bool.or_eq_true] at he
      refine he.imp id (fun hbit => ?_)
      simp only [BitVec.getLsbD_shiftLeft, BitVec.getLsbD_one, Bool.and_eq_true,
        Bool.not_eq_true', decide_eq_false_iff_not, decide_eq_true_eq] at hbit
      rw [Action.does, hturns, Option.some.injEq]
      omega
    | key code => exact Or.inl (hwire _ _ (fun n => Effect.noConfusion) he)
    | realMod code => exact Or.inl (hwire _ _ (fun n => Effect.noConfusion) he)
  | false =>
    have hchange := World.layerStateSet_change (q.layers.state &&& ~~~(1#32 <<< layer)) q hs
    refine ⟨hchange.usb.settled, hchange.usb.weakMods, hchange.source, hchange.config,
      fun e he => ?_⟩
    rw [if_neg Bool.false_ne_true] at he ⊢
    cases e with
    | layer n =>
      change (q.layers.state &&& ~~~(1#32 <<< layer)).getLsbD n = true at he
      rw [BitVec.getLsbD_and, Bool.and_eq_true] at he
      refine ⟨he.1, fun hdoes => ?_⟩
      have heq : layer = n := Option.some.inj (hturns.symm.trans hdoes)
      have hbit := he.2
      subst heq
      simp at hbit
    | key code =>
      exact ⟨hwire _ _ (fun n => Effect.noConfusion) he,
        fun hdoes => Effect.noConfusion (hnot _ hdoes)⟩
    | realMod code =>
      exact ⟨hwire _ _ (fun n => Effect.noConfusion) he,
        fun hdoes => Effect.noConfusion (hnot _ hdoes)⟩

theorem processAction_acted (pressed : Bool) (count : Nat) (a : Action) (q : Qmk)
    (hplain : a.Plain) (hs : q.usb.Settled) (hweak : q.usb.weakMods = 0) :
    Acted pressed (decide (0 < count)) a q (q.processAction pressed count a) := by
  cases a with
  | mods right mods code =>
    rcases hplain with ⟨hright, hmods⟩
    subst hright
    subst hmods
    exact acted_typed pressed _ _ code q _ (World.processMods_typed pressed code q.usb hs) hweak
      rfl rfl
  | system usage => exact acted_sent pressed _ _ q _ hs hweak rfl rfl
  | consumer usage => exact acted_sent pressed _ _ q _ hs hweak rfl rfl
  | layerOnOff layer => exact acted_layer pressed _ _ layer q hs rfl rfl
  | layerTapKey layer code =>
    by_cases hcount : 0 < count
    · rw [decide_eq_true hcount]
      have htyped := World.processMods_typed pressed code q.usb hs
      have hacted := acted_typed pressed true (.layerTapKey layer code) code q _ htyped hweak rfl
        rfl
      cases pressed with
      | true =>
        rw [show q.processAction true count (.layerTapKey layer code) =
          q.onUsb (Usb.registerCode code) from if_pos hcount]
        exact hacted
      | false =>
        rw [show q.processAction false count (.layerTapKey layer code) =
          q.onUsb (Usb.unregisterCode code) from if_pos hcount]
        exact hacted
    · rw [decide_eq_false hcount]
      have hacted := acted_layer pressed false (.layerTapKey layer code) layer q hs rfl rfl
      cases pressed with
      | true =>
        rw [show q.processAction true count (.layerTapKey layer code) = q.layerOn layer from
          if_neg hcount]
        exact hacted
      | false =>
        rw [show q.processAction false count (.layerTapKey layer code) = q.layerOff layer from
          if_neg hcount]
        exact hacted

namespace OrdinaryKeymap

/-! ### A key event -/

/-- What a key was last pressed as. -/
def heldAction (m : OrdinaryKeymap) (key : KeyPos) (q : Qmk) : Option Action :=
  m.actionForKey q.config (sourceLayer key q) key

variable (m : OrdinaryKeymap)

theorem heldAction_congr (key : KeyPos) (q q' : Qmk) (hsource : q'.layers.source = q.layers.source)
    (hconfig : q'.config = q.config) : m.heldAction key q' = m.heldAction key q := by
  unfold heldAction sourceLayer
  rw [hsource, hconfig]

theorem heldAction_plain (key : KeyPos) (q : Qmk) : ∃ a, m.heldAction key q = some a ∧ a.Plain := by
  rcases m.action_cases q.config (sourceLayer key q) key with
    ⟨low, a, hmem, ha⟩ | ⟨layer, code, ha⟩ | ⟨layer, ha⟩
  · refine ⟨a, ha, ?_⟩
    simp only [basicActions, List.mem_cons, List.not_mem_nil, or_false] at hmem
    rcases hmem with rfl | rfl | rfl | rfl | rfl
    · exact ⟨rfl, rfl⟩
    · trivial
    · trivial
    · exact ⟨rfl, rfl⟩
    · exact ⟨rfl, rfl⟩
  · exact ⟨_, ha, trivial⟩
  · exact ⟨_, ha, trivial⟩

theorem lookUp_frame (pressed : Bool) (key : KeyPos) (q : Qmk) :
    (m.lookUp pressed key q).usb = q.usb ∧ (m.lookUp pressed key q).config = q.config ∧
      (m.lookUp pressed key q).layers.state = q.layers.state ∧
      (m.lookUp pressed key q).layers.default = q.layers.default := by
  cases pressed with
  | true => exact ⟨rfl, rfl, rfl, rfl⟩
  | false => exact ⟨rfl, rfl, rfl, rfl⟩

theorem sourceLayer_press (key : KeyPos) (q : Qmk) :
    sourceLayer key (m.lookUp true key q) = m.layerSwitchGetLayer key q := by
  have hlt : m.layerSwitchGetLayer key q < 32 := Layers.highestLayer_lt _ _
  have hlayer : (BitVec.ofNat 8 (m.layerSwitchGetLayer key q)).toNat =
      m.layerSwitchGetLayer key q := by
    rw [BitVec.toNat_ofNat]
    omega
  unfold sourceLayer lookUp
  rw [if_pos rfl]
  dsimp only
  rw [Layers.read_update_self _ _ _ (by rw [hlayer]; exact hlt), hlayer]

theorem sourceLayer_other (pressed : Bool) (key other : KeyPos) (q : Qmk) (h : other ≠ key) :
    sourceLayer other (m.lookUp pressed key q) = sourceLayer other q := by
  cases pressed with
  | true =>
    unfold sourceLayer lookUp
    rw [if_pos rfl]
    dsimp only
    rw [Layers.read_update_other _ _ _ _ h.symm]
  | false => rfl

theorem heldAction_other (pressed : Bool) (key other : KeyPos) (q : Qmk) (h : other ≠ key) :
    m.heldAction other (m.lookUp pressed key q) = m.heldAction other q := by
  unfold heldAction
  rw [m.sourceLayer_other pressed key other q h, (m.lookUp_frame pressed key q).2.1]

def stored (m : OrdinaryKeymap) (r : TapRecord KeyPos) (q : Qmk) : Qmk :=
  m.lookUp r.pressed r.key (m.lookUp r.pressed r.key q)

theorem stored_frame (r : TapRecord KeyPos) (q : Qmk) :
    (m.stored r q).usb = q.usb ∧ (m.stored r q).config = q.config ∧
      (m.stored r q).layers.state = q.layers.state :=
  ⟨(m.lookUp_frame _ _ _).1.trans (m.lookUp_frame _ _ _).1,
    (m.lookUp_frame _ _ _).2.1.trans (m.lookUp_frame _ _ _).2.1,
    (m.lookUp_frame _ _ _).2.2.1.trans (m.lookUp_frame _ _ _).2.2.1⟩

theorem processRecord_eq (r : TapRecord KeyPos) (q : Qmk) (a : Action)
    (ha : m.heldAction r.key (m.stored r q) = some a) :
    m.processRecord r q = (m.stored r q).processAction r.pressed r.tap.count a := by
  have hlayer : m.eventLayer r.pressed r.key (m.lookUp r.pressed r.key q) =
      sourceLayer r.key (m.stored r q) := by
    unfold stored
    cases r.pressed with
    | true => exact (m.sourceLayer_press r.key _).symm
    | false => rfl
  rw [heldAction, (m.stored_frame r q).2.1] at ha
  unfold processRecord
  dsimp only
  rw [hlayer, ha]
  rfl

theorem processRecord_acted (r : TapRecord KeyPos) (q : Qmk) (hs : q.usb.Settled)
    (hweak : q.usb.weakMods = 0) :
    ∃ a, m.heldAction r.key (m.processRecord r q) = some a ∧
      (r.pressed = false → m.heldAction r.key q = some a) ∧
      (∀ key, key ≠ r.key → m.heldAction key (m.processRecord r q) = m.heldAction key q) ∧
      (m.processRecord r q).usb.Settled ∧ (m.processRecord r q).usb.weakMods = 0 ∧
      ∀ e, (m.processRecord r q).Shows e → if r.pressed then q.Shows e ∨ a.does r.tapped e
        else q.Shows e ∧ ¬ a.does r.tapped e := by
  rcases m.stored_frame r q with ⟨husb, _, hstate⟩
  have hshows : ∀ e, (m.stored r q).Shows e ↔ q.Shows e := by
    intro e
    cases e with
    | key code =>
      unfold Qmk.Shows
      rw [husb]
    | realMod code =>
      unfold Qmk.Shows
      rw [husb]
    | layer n =>
      unfold Qmk.Shows
      rw [hstate]
  rcases m.heldAction_plain r.key (m.stored r q) with ⟨a, ha, hplain⟩
  have hrecord := m.processRecord_eq r q a ha
  have hacted := processAction_acted r.pressed r.tap.count a (m.stored r q) hplain
    (by rw [husb]; exact hs) (by rw [husb]; exact hweak)
  rw [← hrecord] at hacted
  have hheld : ∀ key, m.heldAction key (m.processRecord r q) = m.heldAction key (m.stored r q) :=
    fun key => m.heldAction_congr key _ _ hacted.source hacted.config
  refine ⟨a, (hheld r.key).trans ha, fun hpressed => ?_, fun key hkey => ?_, hacted.settled,
    hacted.weakMods, fun e he => ?_⟩
  · have hsame : m.stored r q = q := by
      simp only [stored, lookUp, hpressed, Bool.false_eq_true, if_false]
    rw [← hsame]
    exact ha
  · rw [hheld, stored, m.heldAction_other _ _ _ _ hkey, m.heldAction_other _ _ _ _ hkey]
  · have heffect := hacted.effects e he
    rwa [hshows] at heffect

def Does (m : OrdinaryKeymap) (q : Qmk) (key : KeyPos) (tapped : Bool) (e : Effect) : Prop :=
  ∃ a, m.heldAction key q = some a ∧ a.does tapped e

structure Supported (m : OrdinaryKeymap) (held : KeyPos → Option Bool) (q : Qmk) : Prop where
  settled : q.usb.Settled
  weakMods : q.usb.weakMods = 0
  effects : ∀ e, q.Shows e → ∃ key tapped, held key = some tapped ∧ m.Does q key tapped e

theorem Supported.processRecord {m : OrdinaryKeymap} {held : KeyPos → Option Bool} {q : Qmk}
    (h : m.Supported held q) (r : TapRecord KeyPos) (hfits : Fits (held r.key) [r.stroke])
    (held' : KeyPos → Option Bool) (hself : held' r.key = r.stroke.holding)
    (hother : ∀ key, key ≠ r.key → held' key = held key) :
    m.Supported held' (m.processRecord r q) := by
  rcases m.processRecord_acted r q h.settled h.weakMods with
    ⟨a, ha, hreleased, hsame, hsettled, hweak, heffects⟩
  -- who holds a thing and is not this key still holds it
  have hkeep : ∀ key tapped e, key ≠ r.key → held key = some tapped → m.Does q key tapped e →
      ∃ key tapped, held' key = some tapped ∧ m.Does (m.processRecord r q) key tapped e := by
    rintro key tapped e hkey hheld ⟨b, hb, hdoes⟩
    exact ⟨key, tapped, (hother key hkey).trans hheld, b, (hsame key hkey).trans hb, hdoes⟩
  refine ⟨hsettled, hweak, fun e he => ?_⟩
  have heffect := heffects e he
  cases hpressed : r.pressed with
  | true =>
    rw [hpressed, if_pos rfl] at heffect
    rcases heffect with hshows | hdoes
    · rcases h.effects e hshows with ⟨key, tapped, hheld, hdoes⟩
      refine hkeep key tapped e ?_ hheld hdoes
      rintro rfl
      -- a key that is held is not pressed
      have hstroke := congrArg Stroke.pressed (hfits.1 tapped hheld)
      exact Bool.noConfusion (hpressed.symm.trans hstroke)
    · refine ⟨r.key, r.tapped, ?_, a, ha, hdoes⟩
      rw [hself, Stroke.holding, if_pos (show r.stroke.pressed = true from hpressed)]
      rfl
  | false =>
    rw [hpressed, if_neg Bool.false_ne_true] at heffect
    rcases h.effects e heffect.1 with ⟨key, tapped, hheld, hdoes⟩
    refine hkeep key tapped e ?_ hheld hdoes
    rintro rfl
    -- what it did is off
    have hclass : r.tapped = tapped := congrArg Stroke.tapped (hfits.1 tapped hheld)
    rcases hdoes with ⟨b, hb, hdoes⟩
    refine heffect.2 ?_
    rwa [hclass, ← Option.some.inj ((hreleased hpressed).symm.trans hb)] at *

theorem Supported.processAll {m : OrdinaryKeymap} (term : Nat) (new : List (Handed KeyPos)) :
    ∀ {held : KeyPos → Option Bool} {q : Qmk}, m.Supported held q →
      (∀ key, Fits (held key) (TapState.strokesOf key new)) →
      m.Supported (TapState.heldWith held new) ((m.host term).processAll q new) := by
  induction new with
  | nil =>
    intro held q h _
    exact h
  | cons g new ih =>
    intro held q h hfits
    let held' := TapState.heldWith held [g]
    have hself : TapState.strokesOf g.record.key [g] = [g.record.stroke] :=
      TapState.strokesOf_cons_self g []
    have hcons : ∀ key, TapState.strokesOf key (g :: new) =
        TapState.strokesOf key [g] ++ TapState.strokesOf key new :=
      fun key => TapState.strokesOf_append key [g] new
    have hsplit : ∀ key, Fits (held key) (TapState.strokesOf key [g]) ∧
        Fits (held' key) (TapState.strokesOf key new) := by
      intro key
      have hfit := hfits key
      rwa [hcons, fits_append] at hfit
    have hone : m.Supported held' (m.processRecord g.record q) := by
      refine h.processRecord g.record ?_ held' ?_ (fun key hkey => ?_)
      · rw [← hself]
        exact (hsplit g.record.key).1
      · change heldAfter (held g.record.key) (TapState.strokesOf g.record.key [g]) = _
        rw [hself]
        rfl
      · change heldAfter (held key) (TapState.strokesOf key [g]) = _
        rw [TapState.strokesOf_cons_other key g [] hkey.symm]
        rfl
    have hrest := ih hone (fun key => (hsplit key).2)
    have hheld : TapState.heldWith held (g :: new) = TapState.heldWith held' new := by
      funext key
      rw [TapState.heldWith, hcons, heldAfter_append]
      rfl
    rw [hheld]
    exact hrest

theorem heldAction_processAll (term : Nat) (key : KeyPos) (new : List (Handed KeyPos)) :
    ∀ q : Qmk, q.usb.Settled → q.usb.weakMods = 0 → TapState.strokesOf key new = [] →
      m.heldAction key ((m.host term).processAll q new) = m.heldAction key q := by
  induction new with
  | nil =>
    intro q _ _ _
    rfl
  | cons g new ih =>
    intro q hs hweak hnone
    have hkey : g.record.key ≠ key := by
      rintro rfl
      rw [TapState.strokesOf_cons_self] at hnone
      exact nomatch hnone
    rw [TapState.strokesOf_cons_other key g new hkey] at hnone
    rcases m.processRecord_acted g.record q hs hweak with
      ⟨a, _, _, hsame, hsettled, hweak', _⟩
    exact (ih (m.processRecord g.record q) hsettled hweak' hnone).trans (hsame key hkey.symm)

theorem Supported.nothing {m : OrdinaryKeymap} {held : KeyPos → Option Bool} {q : Qmk}
    (h : m.Supported held q) (hheld : ∀ key, held key = none) :
    q.usb.Clear ∧ q.layers.state = 0 := by
  have hnone : ∀ e, ¬ q.Shows e := by
    intro e he
    rcases h.effects e he with ⟨key, tapped, hkey, _⟩
    rw [hheld key] at hkey
    exact nomatch hkey
  refine ⟨(Usb.clear_iff q.usb h.settled).mpr ⟨fun key => hnone (.key key), ?_, h.weakMods⟩, ?_⟩
  · refine (mods_eq_zero_iff _).mpr (fun code hmod => ?_)
    exact Bool.eq_false_of_not_eq_true (fun hbit => hnone (.realMod code) ⟨hmod, hbit⟩)
  · refine BitVec.eq_of_getLsbD_eq (fun i _ => ?_)
    rw [show (0 : BitVec 32).getLsbD i = false from BitVec.getLsbD_zero]
    exact Bool.eq_false_of_not_eq_true (hnone (.layer i))

end OrdinaryKeymap

end K530
