import K530.Theory.Keymap.Dispatch

/-!
# The Tracker and the Keys Held Down

What the tracker holds after any sequence of keycodes. A code is held exactly when the
last that was heard of it is a press that found it there, or found room for it. A
modifier always finds room. A key does not when six others are held, and that is the
one way in which what is tracked and what is down come apart: from a moment at which
everything is up, and for as long as no more than six keys are down at a time, the
places are the keys that are down.

`KC_NO` is no key. It is the value of a free place, and the tracker does not take it.

## Main definitions

* `CodeEvent`, `follow`: Keycodes, and the main loop after them.

## Theorems

* `holds_follow`: What is held is what found room.
* `tracker_follows`: All of it.
-/

namespace K530

namespace Rollover

open World

/-- A keycode, pressed or released. -/
abbrev CodeEvent := Keycode × Bool

/-- The main loop after some keycodes. -/
def follow (w : World) (events : List CodeEvent) : World :=
  events.foldl (fun w e => btTrackBasicKeycode e.1 e.2 w) w

/-- The last that was heard of the keycode is a press. -/
def down (events : List CodeEvent) (code : Keycode) : Bool :=
  events.foldl (fun held e => if e.1 = code then e.2 else held) false

/-- A basic keycode that is neither a modifier nor `KC_NO`. -/
def IsRolloverKey (code : Keycode) : Prop :=
  code ≤ 0xFF ∧ code ≠ kcNo ∧ isMod (lowByte code) = false

instance (code : Keycode) : Decidable (IsRolloverKey code) :=
  inferInstanceAs (Decidable (_ ∧ _))

def FoundRoom (w : World) (events : List CodeEvent) (code : Keycode) : Prop :=
  ∃ pre post, events = pre ++ (code, true) :: post ∧ (∀ e ∈ post, e.1 ≠ code) ∧
    (follow w pre).tracker.Room (lowByte code)

/-- The keys that are down. -/
def downKeys (events : List CodeEvent) : Finset Keycode :=
  (events.map Prod.fst).toFinset.filter (fun code => IsRolloverKey code ∧ down events code = true)

variable (w : World) (events : List CodeEvent)

theorem follow_concat (e : CodeEvent) :
    follow w (events ++ [e]) = btTrackBasicKeycode e.1 e.2 (follow w events) := by
  unfold follow
  rw [List.foldl_append]
  rfl

theorem down_concat (e : CodeEvent) (code : Keycode) :
    down (events ++ [e]) code = if e.1 = code then e.2 else down events code := by
  unfold down
  rw [List.foldl_append]
  rfl

theorem mem_of_down (code : Keycode) (h : down events code) :
    code ∈ events.map Prod.fst := by
  induction events using List.reverseRecOn with
  | nil => exact absurd h Bool.false_ne_true
  | append_singleton events e ih =>
    rw [List.map_append, List.mem_append]
    by_cases hsame : e.1 = code
    · right
      simp [hsame]
    · rw [down_concat, if_neg hsame] at h
      exact Or.inl (ih h)

theorem mem_downKeys (code : Keycode) :
    code ∈ downKeys events ↔ IsRolloverKey code ∧ down events code := by
  unfold downKeys
  rw [Finset.mem_filter, List.mem_toFinset]
  exact and_iff_right_of_imp (fun h => mem_of_down events code h.2)

theorem foundRoom_concat (e : CodeEvent) (code : Keycode) :
    FoundRoom w (events ++ [e]) code ↔
      if e.1 = code then e.2 = true ∧ (follow w events).tracker.Room (lowByte code)
      else FoundRoom w events code := by
  unfold FoundRoom
  by_cases hsame : e.1 = code
  · rw [if_pos hsame]
    constructor
    · rintro ⟨pre, post, hsplit, hpost, hroom⟩
      rcases List.eq_nil_or_concat post with rfl | ⟨rest, last, rfl⟩
      · obtain ⟨rfl, hlast⟩ := List.append_inj' hsplit rfl
        rw [List.cons.injEq] at hlast
        exact ⟨congrArg Prod.snd hlast.1, hroom⟩
      · -- nothing was heard of it later, and this is later
        rw [List.concat_eq_append, ← List.cons_append, ← List.append_assoc] at hsplit
        have hlast := (List.cons.inj (List.append_inj' hsplit rfl).2).1
        exact absurd hsame (hpost e (by simp [hlast]))
    · rintro ⟨hpress, hroom⟩
      refine ⟨events, [], ?_, by simp, hroom⟩
      rw [← hsame, ← hpress]
  · rw [if_neg hsame]
    constructor
    · rintro ⟨pre, post, hsplit, hpost, hroom⟩
      rcases List.eq_nil_or_concat post with rfl | ⟨rest, last, rfl⟩
      · obtain ⟨rfl, hlast⟩ := List.append_inj' hsplit rfl
        rw [List.cons.injEq] at hlast
        exact absurd (congrArg Prod.fst hlast.1) hsame
      · refine ⟨pre, rest, ?_, fun other hother => hpost other (by simp [hother]), hroom⟩
        rw [List.concat_eq_append, ← List.cons_append, ← List.append_assoc] at hsplit
        exact (List.append_inj' hsplit rfl).1
    · rintro ⟨pre, post, rfl, hpost, hroom⟩
      refine ⟨pre, post ++ [e], by simp, fun other hother => ?_, hroom⟩
      rcases List.mem_append.mp hother with hother | hother
      · exact hpost other hother
      · rw [List.mem_singleton.mp hother]
        exact hsame

theorem follow_packed (h : w.tracker.Packed) (events : List CodeEvent) :
    (follow w events).tracker.Packed := by
  induction events using List.reverseRecOn with
  | nil => exact h
  | append_singleton events e ih =>
    rw [follow_concat, btTrackBasicKeycode_tracker]
    split
    · exact ih
    · rename_i hbasic
      exact Tracker.track_packed _ ih e.1 e.2 (BitVec.not_lt.mp hbasic)

theorem holds_follow_concat (h : w.tracker.Packed) (events : List CodeEvent) (e : CodeEvent)
    (code : Keycode) (hbasic : code ≤ 0xFF) (hcode : code ≠ kcNo) :
    (follow w (events ++ [e])).tracker.Holds (lowByte code) ↔
      if e.1 = code then
        e.2 ∧ ((follow w events).tracker.Holds (lowByte code) ∨
          (follow w events).tracker.Room (lowByte code))
      else (follow w events).tracker.Holds (lowByte code) := by
  have hzero : lowByte code ≠ 0 := fun hc =>
    hcode (lowByte_injective code kcNo hbasic (by decide) hc)
  rw [follow_concat, btTrackBasicKeycode_tracker]
  by_cases hwide : e.1 > 0xFF
  · have hne : e.1 ≠ code := fun hc => absurd hbasic (BitVec.not_le.mpr (hc ▸ hwide))
    rw [if_pos hwide, if_neg hne]
  · rw [if_neg hwide, Tracker.holds_track _ (follow_packed w h events) e.1 e.2
      (BitVec.not_lt.mp hwide)]
    by_cases hsame : e.1 = code
    · subst hsame
      cases e.2 with
      | true =>
        rw [if_pos rfl, if_pos rfl]
        simp only [true_and]
        exact or_congr_right (and_iff_right hzero)
      | false => simp
    · have hlow : lowByte code ≠ lowByte e.1 := fun hc =>
        hsame (lowByte_injective _ _ hbasic (BitVec.not_lt.mp hwide) hc).symm
      cases e.2 with
      | true => simp [hsame, hlow]
      | false => simp [hsame, hlow]

theorem holds_room (t : Tracker) (code : Byte) (h : t.Holds code) : t.Room code := by
  unfold Tracker.Holds at h
  unfold Tracker.Room
  split at h
  · rename_i hmod
    exact Or.inl hmod
  · exact Or.inr (Or.inl h.2)

theorem holds_follow (h : w.tracker = Tracker.empty) (events : List CodeEvent) (code : Keycode)
    (hbasic : code ≤ 0xFF) (hcode : code ≠ kcNo) :
    (follow w events).tracker.Holds (lowByte code) ↔ FoundRoom w events code := by
  have hpacked : w.tracker.Packed := h ▸ ⟨Held.empty, Tracker.empty_shows⟩
  induction events using List.reverseRecOn with
  | nil =>
    refine iff_of_false ?_ ?_
    · exact (Tracker.eq_empty_iff w.tracker hpacked).mp h _
    · rintro ⟨pre, post, hsplit, -⟩
      simp at hsplit
  | append_singleton events e ih =>
    rw [holds_follow_concat w hpacked events e code hbasic hcode, foundRoom_concat]
    simp only [ih]
    split
    · refine and_congr_right (fun _ => or_iff_right_of_imp (fun hfound => ?_))
      exact holds_room _ _ (ih.mpr hfound)
    · rfl

theorem down_of_foundRoom (code : Keycode) (h : FoundRoom w events code) :
    down events code := by
  induction events using List.reverseRecOn with
  | nil =>
    obtain ⟨pre, post, hsplit, -⟩ := h
    simp at hsplit
  | append_singleton events e ih =>
    rw [foundRoom_concat] at h
    rw [down_concat]
    split at h
    · rename_i hsame
      rw [if_pos hsame]
      exact h.1
    · rename_i hsame
      rw [if_neg hsame]
      exact ih h

theorem foundRoom_iff_down (code : Keycode) (hmod : isMod (lowByte code)) :
    FoundRoom w events code ↔ down events code := by
  induction events using List.reverseRecOn with
  | nil =>
    refine iff_of_false ?_ Bool.false_ne_true
    rintro ⟨pre, post, hsplit, -⟩
    simp at hsplit
  | append_singleton events e ih =>
    rw [foundRoom_concat, down_concat]
    split
    · exact and_iff_left (Or.inl hmod)
    · exact ih

/-! ### Six keys at most -/

theorem holds_key (t : Tracker) (code : Keycode) (hkey : IsRolloverKey code) :
    t.Holds (lowByte code) ↔ lowByte code ∈ t.keys := by
  unfold Tracker.Holds
  rw [hkey.2.2, if_neg Bool.false_ne_true]
  exact and_iff_right (fun hc => hkey.2.1 (lowByte_injective code kcNo hkey.1 (by decide) hc))

def Exact (w : World) (events : List CodeEvent) : Prop :=
  ∀ code, IsRolloverKey code → (lowByte code ∈ (follow w events).tracker.keys ↔
    down events code = true)

theorem exists_keys (t : Tracker) (h : t.Packed) (hfull : 0 ∉ t.keys) :
    ∃ codes : Finset Keycode, codes.card = 6 ∧
      ∀ code ∈ codes, IsRolloverKey code ∧ lowByte code ∈ t.keys := by
  obtain ⟨held, hs⟩ := h
  have hlow : ∀ key : Byte, lowByte (key.setWidth 16) = key := by
    intro key
    unfold lowByte
    bv_omega
  refine ⟨(held.keys.map (fun key : Byte => key.setWidth 16)).toFinset, ?_, fun code hcode => ?_⟩
  · rw [List.toFinset_card_of_nodup, List.length_map]
    · exact hs.keys.full_iff.mp hfull
    · exact held.once.map
        (fun a b hab => (hlow a).symm.trans ((congrArg lowByte hab).trans (hlow b)))
  · obtain ⟨key, hkey, rfl⟩ := List.mem_map.mp (List.mem_toFinset.mp hcode)
    obtain ⟨hzero, hmod⟩ := held.kinds key hkey
    rw [hlow]
    refine ⟨⟨by bv_omega, fun hc => hzero ?_, (hlow key).symm ▸ hmod⟩, ?_⟩
    · exact (hlow key).symm.trans (congrArg lowByte hc)
    · exact (hs.keys.mem_iff key hzero).mpr hkey

theorem Exact.step {w : World} {events : List CodeEvent} (hpacked : w.tracker.Packed)
    (h : Exact w events) (e : CodeEvent) (hfew : (downKeys (events ++ [e])).card ≤ 6) :
    Exact w (events ++ [e]) := by
  intro code hkey
  rw [← holds_key _ code hkey, holds_follow_concat w hpacked events e code hkey.1 hkey.2.1,
    down_concat, holds_key _ code hkey]
  by_cases hsame : e.1 = code
  · rw [if_pos hsame, if_pos hsame]
    refine and_iff_left_of_imp (fun hpress => ?_)
    by_contra hnot
    obtain ⟨hout, hroom⟩ := not_or.mp hnot
    -- six other keys are down, and this is the seventh
    have hfull : 0 ∉ (follow w events).tracker.keys := fun hc => hroom (Or.inr (Or.inr hc))
    obtain ⟨codes, hcard, hcodes⟩ := exists_keys _ (follow_packed w hpacked events) hfull
    have hnew : code ∉ codes := fun hc => hout (hcodes code hc).2
    have hsub : insert code codes ⊆ downKeys (events ++ [e]) := by
      intro other hother
      rw [mem_downKeys, down_concat]
      rcases Finset.mem_insert.mp hother with rfl | hother
      · rw [if_pos hsame]
        exact ⟨hkey, hpress⟩
      · obtain ⟨hotherKey, hin⟩ := hcodes other hother
        rw [if_neg (fun hc => hnew (hsame.symm.trans hc ▸ hother))]
        exact ⟨hotherKey, (h other hotherKey).mp hin⟩
    have hle := Finset.card_le_card hsub
    rw [Finset.card_insert_of_notMem hnew, hcard] at hle
    omega
  · rw [if_neg hsame, if_neg hsame]
    exact h code hkey

theorem Exact.of_up {w : World} (hempty : w.tracker = Tracker.empty) {events : List CodeEvent}
    (hup : ∀ code, IsRolloverKey code → down events code = false) : Exact w events := by
  intro code hkey
  rw [hup code hkey, ← holds_key _ code hkey, holds_follow w hempty events code hkey.1 hkey.2.1]
  refine iff_of_false (fun hfound => ?_) Bool.false_ne_true
  exact Bool.false_ne_true ((hup code hkey).symm.trans (down_of_foundRoom w events code hfound))

theorem Exact.run {w : World} (hpacked : w.tracker.Packed) {pre : List CodeEvent}
    (h : Exact w pre) (post : List CodeEvent)
    (hfew : ∀ q, q <+: post → (downKeys (pre ++ q)).card ≤ 6) : Exact w (pre ++ post) := by
  induction post using List.reverseRecOn with
  | nil =>
    rw [List.append_nil]
    exact h
  | append_singleton post e ih =>
    have hpre := ih (fun q hq => hfew q (hq.trans (List.prefix_append post [e])))
    have hlast := hfew (post ++ [e]) (List.prefix_refl _)
    rw [← List.append_assoc] at hlast ⊢
    exact hpre.step hpacked e hlast

/-- After any keycodes the tracker's keys are distinct and packed. A key has a place exactly
    when the last that was heard of it is a press that found it there or found a free place.
    From a moment at which all keys are up, as long as no more than six are down at a time,
    the places are the keys that are down. And the modifiers are those whose last event is a
    press. -/
theorem tracker_follows (config : KeymapConfig) (nkro rgbEnabled : Bool) (r : Readings)
    (events : List CodeEvent) :
    let w := powerOn config nkro rgbEnabled r
    let t := (follow w events).tracker
    ((∀ i j : Fin 6, i < j → t.keys.get i = 0 → t.keys.get j = 0) ∧
        ∀ i j : Fin 6, t.keys.get i ≠ 0 → t.keys.get i = t.keys.get j → i = j) ∧
      (∀ code, IsRolloverKey code → (lowByte code ∈ t.keys ↔
        ∃ pre post, events = pre ++ (code, true) :: post ∧ (∀ e ∈ post, e.1 ≠ code) ∧
          (lowByte code ∈ (follow w pre).tracker.keys ∨ 0 ∈ (follow w pre).tracker.keys))) ∧
      (∀ pre post, events = pre ++ post →
        (∀ code, IsRolloverKey code → down pre code = false) →
        (∀ q, q <+: post → (downKeys (pre ++ q)).card ≤ 6) →
        ∀ code, IsRolloverKey code → (lowByte code ∈ t.keys ↔ down events code = true)) ∧
      ∀ code, code ≤ 0xFF → isMod (lowByte code) = true →
        hasMod t.mods (lowByte code) = down events code := by
  intro w t
  have hempty : w.tracker = Tracker.empty := rfl
  have hpacked : w.tracker.Packed := ⟨Held.empty, Tracker.empty_shows⟩
  refine ⟨?_, fun code hkey => ?_, ?_, fun code hbasic hmod => ?_⟩
  · obtain ⟨held, hs⟩ := follow_packed w hpacked events
    exact ⟨hs.keys.free_after, hs.keys.getElem_injective⟩
  · rw [← holds_key t code hkey, holds_follow w hempty events code hkey.1 hkey.2.1]
    unfold FoundRoom Tracker.Room
    simp only [hkey.2.2, Bool.false_eq_true, false_or]
  · rintro pre post rfl hup hfew
    exact (Exact.of_up hempty hup).run hpacked post hfew
  · have hcode : code ≠ kcNo := fun hc => absurd hmod (by rw [hc]; decide)
    have hholds := (holds_follow w hempty events code hbasic hcode).trans
      (foundRoom_iff_down w events code hmod)
    unfold Tracker.Holds at hholds
    rw [if_pos hmod] at hholds
    exact Bool.eq_iff_iff.mpr hholds

/-- Two keys and a modifier, one of the keys let go. -/
def typing : List CodeEvent :=
  [(kcA, true), (kcLeftShift, true), (kcB, true), (kcA, false)]

/-- Nothing is connected, and the selector is in position 1. -/
def atRest : Readings :=
  { charging := false, toggle := true, slotHi := true, slotLo := true }

theorem tracker_follows_typing :
    (downKeys typing).card = 1 ∧
      lowByte kcB ∈
        (follow (powerOn KeymapConfig.default false true atRest) typing).tracker.keys := by
  have hfew : ∀ q ∈ typing.inits, (downKeys ([] ++ q)).card ≤ 6 := by decide +kernel
  have hexact := (tracker_follows KeymapConfig.default false true atRest typing).2.2.1 [] typing rfl
    (fun _ _ => rfl) (fun q hq => hfew q ((List.mem_inits q typing).mpr hq)) kcB (by decide)
  exact ⟨by decide +kernel, hexact.mpr (by decide)⟩

end Rollover

end K530
