import K530.Theory.Combo.Chord

/-!
# A Key Goes Down

The loop of `process_combo` for the press of a key. A combo takes part when it has the key,
is not disabled and combos are on. It sets the key's bit, and when that was the last bit
missing it goes into the ring, after the smaller combos there that share a key with it have
been disabled; or it is disabled itself.

A combo that does not take part is treated as if the key were released. But the key was up,
so its bit is not set anywhere, and nothing happens.

## Main definitions

* `takesPart`: The combo takes the key.

## Theorems

* `dropOverlapping_spec`: The loop over the ring.
* `Turned.ringed`, `Turned.apart`: A turn keeps them.
-/

namespace K530

open Ring

namespace Combos

variable {n w m : Nat} [NeZero m] (combos : Fin n → Combo)

/-! ### Dropping -/

structure Dropped (q q' : Combos n w m) : Prop where
  active : ∀ j, (q'.combos j).active = (q.combos j).active
  state : ∀ j, (q'.combos j).state = (q.combos j).state
  disabled : ∀ j, (q.combos j).disabled = true → (q'.combos j).disabled = true
  comboBuffer : q'.comboBuffer = q.comboBuffer
  write : q'.write = q.write
  log : q'.log = q.log
  chord : q'.chord = q.chord
  keyBuffer : q'.keyBuffer = q.keyBuffer
  enabled : q'.enabled = q.enabled
  sub : q'.prepared.Sublist q.prepared
  keeps : ∀ j ∈ q.prepared, (q'.combos j).disabled = false → j ∈ q'.prepared

theorem Dropped.refl (q : Combos n w m) : Dropped q q :=
  ⟨fun _ => rfl, fun _ => rfl, fun _ h => h, rfl, rfl, rfl, rfl, rfl, rfl, List.Sublist.refl _,
    fun _ h _ => h⟩

theorem Dropped.trans {q q' q'' : Combos n w m} (h : Dropped q q') (h' : Dropped q' q'') :
    Dropped q q'' where
  active j := (h'.active j).trans (h.active j)
  state j := (h'.state j).trans (h.state j)
  disabled j hj := h'.disabled j (h.disabled j hj)
  comboBuffer := h'.comboBuffer.trans h.comboBuffer
  write := h'.write.trans h.write
  log := h'.log.trans h.log
  chord := h'.chord.trans h.chord
  keyBuffer := h'.keyBuffer.trans h.keyBuffer
  enabled := h'.enabled.trans h.enabled
  sub := h'.sub.trans h.sub
  keeps j hj hidle := by
    refine h'.keeps j (h.keeps j hj ?_) hidle
    refine Bool.eq_false_of_not_eq_true (fun hcon => ?_)
    exact Bool.false_ne_true (hidle.symm.trans (h'.disabled j hcon))

theorem dropped_disable (i : Fin n) (q : Combos n w m) (read : Fin m)
    (hsub : (contents q.comboBuffer read q.write).Sublist q.prepared)
    (hkeeps : ∀ j ∈ q.prepared, j ≠ i → j ∈ contents q.comboBuffer read q.write) :
    Dropped q { q.disable i with read } ∧ ((q.disable i).combos i).disabled := by
  have hself : (q.disable i).combos i = { q.combos i with disabled := true } :=
    Function.update_self _ _ _
  have hother : ∀ j, j ≠ i → (q.disable i).combos j = q.combos j :=
    fun j hj => Function.update_of_ne hj _ _
  refine ⟨⟨fun j => ?_, fun j => ?_, fun j hj => ?_, rfl, rfl, rfl, rfl, rfl, rfl, hsub,
    fun j hj hidle => hkeeps j hj ?_⟩, ?_⟩
  · change ((q.disable i).combos j).active = _
    by_cases hji : j = i
    · rw [hji, hself]
    · rw [hother j hji]
  · change ((q.disable i).combos j).state = _
    by_cases hji : j = i
    · rw [hji, hself]
    · rw [hother j hji]
  · change ((q.disable i).combos j).disabled
    by_cases hji : j = i
    · rw [hji, hself]
    · rw [hother j hji]
      exact hj
  · rintro rfl
    change ((q.disable j).combos j).disabled = false at hidle
    rw [hself] at hidle
    exact Bool.false_ne_true hidle.symm
  · rw [hself]

def Share (i j : Fin n) : Prop := ∃ key ∈ (combos i).keys, key ∈ (combos j).keys

variable {combos}

theorem overlaps_eq_none (i j : Fin n) : overlaps combos i j = none ↔ ¬ Share combos i j := by
  unfold overlaps Share
  have hany : (combos i).keys.any (fun key => (combos j).keys.contains key) = true ↔
      ∃ key ∈ (combos i).keys, key ∈ (combos j).keys := by
    simp [List.any_eq_true]
  rw [← hany]
  split
  next h =>
    refine iff_of_false ?_ (not_not_intro h)
    split <;> exact Option.some_ne_none _
  next h => exact iff_of_true rfl h

theorem overlaps_eq_some (i j d : Fin n) (h : overlaps combos i j = some d) : d = i ∨ d = j := by
  unfold overlaps at h
  split at h
  · split at h
    · exact Or.inr (Option.some.inj h).symm
    · exact Or.inl (Option.some.inj h).symm
  · cases h

variable (combos) in
theorem dropOverlapping_spec (i : Fin n) (ps : List (Fin m)) :
    ∀ q : Combos n w m, (∀ p ∈ ps, p ≠ q.write) →
      Dropped q (q.dropOverlapping combos i ps).2 ∧
      ((q.dropOverlapping combos i ps).1 →
        ((q.dropOverlapping combos i ps).2.combos i).disabled) ∧
      ((q.dropOverlapping combos i ps).1 = false → ∀ j ∈ ps.filterMap q.comboBuffer,
        Share combos j i → ((q.dropOverlapping combos i ps).2.combos j).disabled) := by
  induction ps with
  | nil =>
    intro q _
    exact ⟨.refl q, fun h => absurd h Bool.false_ne_true, fun _ j hj => absurd hj (by simp)⟩
  | cons p ps ih =>
    intro q hps
    have hrest : ∀ p ∈ ps, p ≠ q.write := fun p hp => hps p (List.mem_cons_of_mem _ hp)
    rw [dropOverlapping]
    cases hslot : q.comboBuffer p with
    | none =>
      rw [Option.bind_none, List.filterMap_cons_none hslot]
      exact ih q hrest
    | some buffered =>
      rw [Option.bind_some, List.filterMap_cons_some hslot]
      cases hover : overlaps combos buffered i with
      | none =>
        obtain ⟨hdropped, hself, hothers⟩ := ih q hrest
        refine ⟨hdropped, hself, fun hfalse j hj hshare => ?_⟩
        rcases List.mem_cons.mp hj with rfl | hj
        · exact absurd hshare ((overlaps_eq_none j i).mp hover)
        · exact hothers hfalse j hj hshare
      | some d =>
        dsimp only
        by_cases hdi : d = i
        · rw [if_pos hdi]
          obtain ⟨hdropped, hself⟩ := dropped_disable d q q.read (List.Sublist.refl _)
            (fun j hj _ => hj)
          exact ⟨hdropped, fun _ => hdi ▸ hself, fun h => absurd h.symm Bool.false_ne_true⟩
        · rw [if_neg hdi]
          have hd : d = buffered := (overlaps_eq_some buffered i d hover).resolve_right hdi
          -- at the beginning of the ring it is the combo that is disabled
          obtain ⟨q', hq', hdropped, hdisabled⟩ : ∃ q', q' =
              (if p = q.read then { q.disable d with read := q.read + 1 } else q.disable d) ∧
              Dropped q q' ∧ (q'.combos d).disabled := by
            refine ⟨_, rfl, ?_⟩
            by_cases hread : p = q.read
            · rw [if_pos hread]
              have hne : q.read ≠ q.write := hread ▸ hps p List.mem_cons_self
              have hcons : q.prepared = d :: contents q.comboBuffer (q.read + 1) q.write := by
                unfold prepared contents
                rw [positions_cons q.read q.write hne,
                  List.filterMap_cons_some (hread ▸ hslot), hd]
              refine dropped_disable d q (q.read + 1) ?_ (fun j hj hjd => ?_)
              · rw [hcons]
                exact List.sublist_cons_self _ _
              · rw [hcons] at hj
                exact (List.mem_cons.mp hj).resolve_left hjd
            · rw [if_neg hread]
              exact dropped_disable d q q.read (List.Sublist.refl _) (fun j hj _ => hj)
          rw [← hq']
          obtain ⟨hmore, hself, hothers⟩ := ih q' (by rw [hdropped.write]; exact hrest)
          refine ⟨hdropped.trans hmore, hself, fun hfalse j hj hshare => ?_⟩
          rcases List.mem_cons.mp hj with rfl | hj
          · exact hmore.disabled j (hd ▸ hdisabled)
          · refine hothers hfalse j ?_ hshare
            rw [hdropped.comboBuffer]
            exact hj

/-! ### A turn -/

variable (combos)

/-- The combo has taken the key, in `process_single_combo`. -/
def takeKey (i : Fin n) (index : Nat) (q : Combos n w m) : Combos n w m :=
  if (q.combos i).active then q
  else
    { q.setCombo i { q.combos i with state := ComboState.keyDown (q.combos i).state index } with
      longestTerm := if q.longestTerm < (combos i).term then (combos i).term else q.longestTerm }

/-- A combo that is put into the ring finds a place there. -/
def FindsPlace (now : BitVec 16) (i : Fin n) (q : Combos n w m) : Prop :=
  ComboState.allDown (q.combos i).state (combos i).keys.length = true →
    ¬ (q.timer ≠ 0 ∧ now - q.timer > (combos i).term) →
    (q.dropOverlapping combos i (positions q.read q.write)).1 = false →
    (q.dropOverlapping combos i (positions q.read q.write)).2.write + 1 ≠
      (q.dropOverlapping combos i (positions q.read q.write)).2.read

structure Turned (i : Fin n) (index : Nat) (q q' : Combos n w m) : Prop where
  active : ∀ j, (q'.combos j).active = (q.combos j).active
  disabled : ∀ j, (q.combos j).disabled = true → (q'.combos j).disabled = true
  others : ∀ j, j ≠ i → (q'.combos j).state = (q.combos j).state
  state : (q'.combos i).state = ComboState.keyDown (q.combos i).state index
  log : q'.log = q.log
  chord : q'.chord = q.chord
  keyBuffer : q'.keyBuffer = q.keyBuffer
  enabled : q'.enabled = q.enabled
  sub : ∀ j ∈ q'.prepared, j ∈ q.prepared ∨
    j = i ∧ ComboState.allDown (q'.combos i).state (combos i).keys.length = true
  keeps : ∀ j ∈ q.prepared, (q'.combos j).disabled = false → j ∈ q'.prepared
  ready : ComboState.allDown (q'.combos i).state (combos i).keys.length = true →
    (q'.combos i).disabled = false → i ∈ q'.prepared ∧
      ∀ j ∈ q'.prepared, j ≠ i → Share combos j i → (q'.combos j).disabled = true

variable {combos}

variable (combos) in
omit [NeZero m] in
theorem takeKey_states (i : Fin n) (index : Nat) (q : Combos n w m)
    (hidle : (q.combos i).active = false) (j : Fin n) :
    ((q.takeKey combos i index).combos j).active = (q.combos j).active ∧
      ((q.takeKey combos i index).combos j).disabled = (q.combos j).disabled ∧
      ((q.takeKey combos i index).combos j).state =
        if j = i then ComboState.keyDown (q.combos i).state index else (q.combos j).state := by
  unfold takeKey
  rw [if_neg (by rw [hidle]; exact Bool.false_ne_true)]
  unfold setCombo
  by_cases hji : j = i
  · subst hji
    dsimp only
    rw [Function.update_self, if_pos rfl]
    exact ⟨rfl, rfl, rfl⟩
  · dsimp only
    rw [Function.update_of_ne hji, if_neg hji]
    exact ⟨rfl, rfl, rfl⟩

variable (combos) in
theorem takeKey_rest (i : Fin n) (index : Nat) (q : Combos n w m) :
    (q.takeKey combos i index).log = q.log ∧ (q.takeKey combos i index).chord = q.chord ∧
      (q.takeKey combos i index).keyBuffer = q.keyBuffer ∧
      (q.takeKey combos i index).enabled = q.enabled ∧
      (q.takeKey combos i index).prepared = q.prepared := by
  unfold takeKey
  split <;> exact ⟨rfl, rfl, rfl, rfl, rfl⟩

theorem Dropped.turned {i : Fin n} {index : Nat} {q q' : Combos n w m}
    (h : Dropped (q.takeKey combos i index) q') (hidle : (q.combos i).active = false)
    (hready : ComboState.allDown ((q.takeKey combos i index).combos i).state
      (combos i).keys.length → (q'.combos i).disabled) :
    Turned combos i index q q' := by
  have hstates := takeKey_states combos i index q hidle
  obtain ⟨hlog, hchord, hbuffer, henabled, hprepared⟩ := takeKey_rest combos i index q
  exact
    { active := fun j => (h.active j).trans (hstates j).1
      disabled := fun j hj => h.disabled j ((hstates j).2.1.trans hj)
      others := fun j hji => (h.state j).trans ((hstates j).2.2.trans (if_neg hji))
      state := (h.state i).trans ((hstates i).2.2.trans (if_pos rfl))
      log := h.log.trans hlog
      chord := h.chord.trans hchord
      keyBuffer := h.keyBuffer.trans hbuffer
      enabled := h.enabled.trans henabled
      sub := fun j hj => Or.inl (hprepared ▸ h.sub.subset hj)
      keeps := fun j hj => h.keeps j (hprepared ▸ hj)
      ready := by
        intro hall hon
        rw [h.state] at hall
        exact absurd (hon.symm.trans (hready hall)) Bool.false_ne_true }

theorem Dropped.turned_enqueue {i : Fin n} {index : Nat} {q q' : Combos n w m}
    (h : Dropped (q.takeKey combos i index) q') (hidle : (q.combos i).active = false)
    (hall : ComboState.allDown ((q.takeKey combos i index).combos i).state
      (combos i).keys.length)
    (hplace : q'.write + 1 ≠ q'.read)
    (hothers : ∀ j ∈ q.prepared, Share combos j i → (q'.combos j).disabled) :
    Turned combos i index q (q'.enqueue i) := by
  have hstates := takeKey_states combos i index q hidle
  obtain ⟨hlog, hchord, hbuffer, henabled, hprepared⟩ := takeKey_rest combos i index q
  have hring : (q'.enqueue i).prepared = q'.prepared ++ [i] := by
    have hpush := contents_push q'.comboBuffer q'.read q'.write i
    rw [if_neg hplace] at hpush
    exact hpush
  have hmem : ∀ j ∈ (q'.enqueue i).prepared, j ∈ q.prepared ∨ j = i := by
    intro j hj
    rw [hring, List.mem_append, List.mem_singleton] at hj
    exact hj.imp_left (fun hj => hprepared ▸ h.sub.subset hj)
  exact
    { active := fun j => (h.active j).trans (hstates j).1
      disabled := fun j hj => h.disabled j ((hstates j).2.1.trans hj)
      others := fun j hji => (h.state j).trans ((hstates j).2.2.trans (if_neg hji))
      state := (h.state i).trans ((hstates i).2.2.trans (if_pos rfl))
      log := h.log.trans hlog
      chord := h.chord.trans hchord
      keyBuffer := h.keyBuffer.trans hbuffer
      enabled := h.enabled.trans henabled
      sub := by
        refine fun j hj => (hmem j hj).imp_right (fun hji => ⟨hji, ?_⟩)
        change ComboState.allDown (q'.combos i).state _ = true
        rw [h.state]
        exact hall
      keeps := by
        intro j hj hon
        rw [hring]
        exact List.mem_append_left _ (h.keeps j (hprepared ▸ hj) hon)
      ready := by
        refine fun _ _ => ⟨?_, fun j hj hji hshare =>
          hothers j ((hmem j hj).resolve_right hji) hshare⟩
        rw [hring]
        exact List.mem_append_right _ (List.mem_singleton_self i) }

theorem chordPress_turned (now : BitVec 16) (i : Fin n) (index : Nat) (q : Combos n w m)
    (hidle : (q.combos i).active = false)
    (hplace : (q.takeKey combos i index).FindsPlace combos now i) :
    Turned combos i index q (q.chordPress combos now i index) := by
  have heq : q.chordPress combos now i index =
      if ComboState.allDown ((q.takeKey combos i index).combos i).state (combos i).keys.length then
        (q.takeKey combos i index).fullyPressed combos now i
      else q.takeKey combos i index := rfl
  have hprepared := (takeKey_rest combos i index q).2.2.2.2
  rw [heq]
  by_cases hall : ComboState.allDown ((q.takeKey combos i index).combos i).state
      (combos i).keys.length
  · rw [if_pos hall]
    unfold fullyPressed
    by_cases hlate : (q.takeKey combos i index).timer ≠ 0 ∧
        now - (q.takeKey combos i index).timer > (combos i).term
    · rw [if_pos hlate]
      obtain ⟨hdropped, hself⟩ := dropped_disable i (q.takeKey combos i index)
        (q.takeKey combos i index).read (List.Sublist.refl _) (fun j hj _ => hj)
      exact hdropped.turned hidle (fun _ => hself)
    · rw [if_neg hlate]
      have hfinds := hplace hall hlate
      obtain ⟨hdropped, hself, hothers⟩ := dropOverlapping_spec combos i
        (positions (q.takeKey combos i index).read (q.takeKey combos i index).write)
        (q.takeKey combos i index) (positions_last _ _)
      dsimp only
      cases hpart : ((q.takeKey combos i index).dropOverlapping combos i (positions
          (q.takeKey combos i index).read (q.takeKey combos i index).write)).1 with
      | true =>
        rw [if_pos rfl]
        exact hdropped.turned hidle (fun _ => hself hpart)
      | false =>
        rw [if_neg Bool.false_ne_true]
        refine hdropped.turned_enqueue hidle hall (hfinds hpart) (fun j hj => ?_)
        rw [← hprepared] at hj
        exact hothers hpart j hj
  · rw [if_neg hall]
    exact (Dropped.refl _).turned hidle (fun h => absurd h hall)

/-! ### The ring after a turn -/

variable (combos)

def Ringed (q : Combos n w m) : Prop :=
  ∀ i, (combos i).keys ≠ [] → (q.combos i).disabled = false →
    ComboState.allDown (q.combos i).state (combos i).keys.length = true → i ∈ q.prepared

def Apart (q : Combos n w m) : Prop :=
  ∀ i ∈ q.prepared, ∀ j ∈ q.prepared,
    (q.combos i).disabled = false → (q.combos j).disabled = false →
    ComboState.allDown (q.combos i).state (combos i).keys.length = true →
    ComboState.allDown (q.combos j).state (combos j).keys.length = true →
    Share combos i j → i = j

variable {combos}

theorem Share.symm {i j : Fin n} (h : Share combos i j) : Share combos j i := by
  obtain ⟨key, hi, hj⟩ := h
  exact ⟨key, hj, hi⟩

theorem Turned.on {i : Fin n} {index : Nat} {q q' : Combos n w m} (h : Turned combos i index q q')
    {j : Fin n} (hon : (q'.combos j).disabled = false) : (q.combos j).disabled = false := by
  refine Bool.eq_false_of_not_eq_true (fun hcon => ?_)
  exact Bool.false_ne_true (hon.symm.trans (h.disabled j hcon))

theorem Turned.ringed {i : Fin n} {index : Nat} {q q' : Combos n w m}
    (h : Turned combos i index q q') (hringed : q.Ringed combos) : q'.Ringed combos := by
  intro j hkeys hon hall
  by_cases hji : j = i
  · subst hji
    exact (h.ready hall hon).1
  · rw [h.others j hji] at hall
    exact h.keeps j (hringed j hkeys (h.on hon) hall) hon

theorem Turned.apart {i : Fin n} {index : Nat} {q q' : Combos n w m}
    (h : Turned combos i index q q') (hapart : q.Apart combos) : q'.Apart combos := by
  intro a ha b hb hona honb halla hallb hshare
  by_contra hne
  by_cases hai : a = i
  · subst hai
    exact Bool.false_ne_true
      (honb.symm.trans ((h.ready halla hona).2 b hb (Ne.symm hne) hshare.symm))
  · by_cases hbi : b = i
    · subst hbi
      exact Bool.false_ne_true (hona.symm.trans ((h.ready hallb honb).2 a ha hne hshare))
    · rw [h.others a hai] at halla
      rw [h.others b hbi] at hallb
      refine hne (hapart a ?_ b ?_ (h.on hona) (h.on honb) halla hallb hshare)
      · exact (h.sub a ha).resolve_right (fun hcon => hai hcon.1)
      · exact (h.sub b hb).resolve_right (fun hcon => hbi hcon.1)

/-! ### The loop -/

variable (combos)

/-- The combo takes the key. -/
def takesPart (keycode : Keycode) (q : Combos n w m) (i : Fin n) : Bool :=
  (!(q.combos i).disabled && q.enabled) && ((combos i).keyIndex keycode).isSome

/-- In every turn, a combo that is put into the ring finds a place there. -/
def FindPlaces (now : BitVec 16) (keycode : Keycode) : List (Fin n) → Combos n w m → Prop
  | [], _ => True
  | i :: is, q =>
    (∀ index ∈ (combos i).keyIndex keycode, q.takesPart combos keycode i = true →
      (q.takeKey combos i index).FindsPlace combos now i) ∧
    FindPlaces now keycode is (q.processSingleCombo combos now keycode true i).2

instance (now : BitVec 16) (i : Fin n) (q : Combos n w m) :
    Decidable (q.FindsPlace combos now i) :=
  inferInstanceAs (Decidable (_ → _ → _ → _))

instance decidableFindPlaces (now : BitVec 16) (keycode : Keycode) :
    (is : List (Fin n)) → (q : Combos n w m) → Decidable (q.FindPlaces combos now keycode is)
  | [], _ => inferInstanceAs (Decidable True)
  | i :: is, q =>
    have := decidableFindPlaces now keycode is
      (q.processSingleCombo combos now keycode true i).2
    inferInstanceAs (Decidable ((∀ index ∈ (combos i).keyIndex keycode,
      q.takesPart combos keycode i = true →
        (q.takeKey combos i index).FindsPlace combos now i) ∧ _))

structure Pressed (keycode : Keycode) (q q' : Combos n w m) : Prop where
  active : ∀ j, (q'.combos j).active = (q.combos j).active
  disabled : ∀ j, (q.combos j).disabled = true → (q'.combos j).disabled = true
  kept : ∀ j b, (q.combos j).state.getLsbD b = true → (q'.combos j).state.getLsbD b = true
  set : ∀ j b, (q'.combos j).state.getLsbD b = true → (q.combos j).state.getLsbD b = true ∨
    (q.combos j).disabled = false ∧ (combos j).keyIndex keycode = some b
  log : q'.log = q.log
  chord : q'.chord = q.chord
  keyBuffer : q'.keyBuffer = q.keyBuffer
  enabled : q'.enabled = q.enabled
  sub : ∀ j ∈ q'.prepared, j ∈ q.prepared ∨
    (q.combos j).active = false ∧ (combos j).keys ≠ [] ∧
      ∀ b < (combos j).keys.length, (q'.combos j).state.getLsbD b = true
  ringed : q.Ringed combos → q'.Ringed combos
  apart : q.Apart combos → q'.Apart combos

variable {combos}

theorem Pressed.refl (keycode : Keycode) (q : Combos n w m) : Pressed combos keycode q q :=
  ⟨fun _ => rfl, fun _ h => h, fun _ _ h => h, fun _ _ h => Or.inl h, rfl, rfl, rfl, rfl,
    fun _ h => Or.inl h, fun h => h, fun h => h⟩

theorem Pressed.trans {keycode : Keycode} {q q' q'' : Combos n w m}
    (h : Pressed combos keycode q q') (h' : Pressed combos keycode q' q'') :
    Pressed combos keycode q q'' where
  active j := (h'.active j).trans (h.active j)
  disabled j hj := h'.disabled j (h.disabled j hj)
  kept j b hb := h'.kept j b (h.kept j b hb)
  set j b hb := by
    rcases h'.set j b hb with hb | ⟨hon, hindex⟩
    · exact h.set j b hb
    · refine Or.inr ⟨Bool.eq_false_of_not_eq_true (fun hcon => ?_), hindex⟩
      exact Bool.false_ne_true (hon.symm.trans (h.disabled j hcon))
  log := h'.log.trans h.log
  chord := h'.chord.trans h.chord
  keyBuffer := h'.keyBuffer.trans h.keyBuffer
  enabled := h'.enabled.trans h.enabled
  sub j hj := by
    rcases h'.sub j hj with hj | hnew
    · refine (h.sub j hj).imp_right (fun hnew => ⟨hnew.1, hnew.2.1, fun b hb => ?_⟩)
      exact h'.kept j b (hnew.2.2 b hb)
    · exact Or.inr ⟨(h.active j).symm.trans hnew.1, hnew.2⟩
  ringed hr := h'.ringed (h.ringed hr)
  apart ha := h'.apart (h.apart ha)

theorem Turned.pressed {keycode : Keycode} {i : Fin n} {index : Nat} {q q' : Combos n w m}
    (h : Turned combos i index q q') (hindex : (combos i).keyIndex keycode = some index)
    (hkey : keycode ≠ comboEnd) (hon : (q.combos i).disabled = false)
    (hidle : (q.combos i).active = false) : Pressed combos keycode q q' where
  active := h.active
  disabled := h.disabled
  kept j b hb := by
    by_cases hji : j = i
    · subst hji
      rw [h.state, ComboState.getLsbD_keyDown, hb, Bool.true_or]
    · rw [h.others j hji]
      exact hb
  set j b hb := by
    by_cases hji : j = i
    · subst hji
      rw [h.state, ComboState.getLsbD_keyDown, Bool.or_eq_true, Bool.and_eq_true,
        decide_eq_true_eq, decide_eq_true_eq] at hb
      refine hb.imp_right (fun hnew => ⟨hon, ?_⟩)
      rw [hindex, hnew.2]
    · rw [h.others j hji] at hb
      exact Or.inl hb
  log := h.log
  chord := h.chord
  keyBuffer := h.keyBuffer
  enabled := h.enabled
  sub j hj := by
    refine (h.sub j hj).imp_right ?_
    rintro ⟨rfl, hall⟩
    refine ⟨hidle, List.ne_nil_of_mem ((combos j).mem_keys_of_keyIndex keycode hkey index hindex),
      fun b hb => ?_⟩
    rw [(ComboState.allDown_iff _ _).mp hall b, decide_eq_true hb]
  ringed := h.ringed
  apart := h.apart

theorem processSingleCombo_nobody (now : BitVec 16) (keycode : Keycode) (hkey : keycode ≠ comboEnd)
    (i : Fin n) (q : Combos n w m)
    (hup : ∀ b, (combos i).keyIndex keycode = some b → (q.combos i).state.getLsbD b = false)
    (hnot : q.takesPart combos keycode i = false) :
    q.processSingleCombo combos now keycode true i = (false, q) := by
  unfold processSingleCombo
  cases hindex : (combos i).keyIndex keycode with
  | none => rfl
  | some index =>
    have hbit := hup index hindex
    have hpart : (!(q.combos i).disabled && q.enabled) = false := by
      unfold takesPart at hnot
      rw [hindex, Option.isSome_some, Bool.and_true] at hnot
      exact hnot
    have hall : ComboState.allDown (q.combos i).state (combos i).keys.length = false := by
      refine Bool.eq_false_of_not_eq_true (fun hall => ?_)
      have hset := (ComboState.allDown_iff _ _).mp hall index
      rw [hbit, decide_eq_true ((combos i).keyIndex_lt keycode hkey index hindex)] at hset
      exact Bool.false_ne_true hset
    have hsame : ({ q.combos i with
        state := ComboState.keyUp (q.combos i).state index } : ComboState w) = q.combos i := by
      have hstate : ComboState.keyUp (q.combos i).state index = (q.combos i).state := by
        refine BitVec.eq_of_getLsbD_eq (fun b _ => ?_)
        rw [ComboState.getLsbD_keyUp]
        by_cases hb : index = b
        · rw [← hb, hbit, Bool.false_and]
        · rw [decide_eq_false hb, Bool.not_false, Bool.and_true]
      rw [hstate]
    have hset : q.setCombo i (q.combos i) = q := by
      unfold setCombo
      rw [Function.update_eq_self]
    dsimp only
    rw [hpart, Bool.and_false, if_neg Bool.false_ne_true]
    unfold chordRelease
    simp only [hall, hbit, Bool.and_false, Bool.false_eq_true, if_false]
    rw [hsame, hset]

theorem processCombos_nobody (now : BitVec 16) (keycode : Keycode) (hkey : keycode ≠ comboEnd)
    (is : List (Fin n)) (q : Combos n w m)
    (hup : ∀ j b, (combos j).keyIndex keycode = some b → (q.combos j).state.getLsbD b = false)
    (hnot : ∀ i ∈ is, q.takesPart combos keycode i = false) :
    q.processCombos combos now keycode true is = (false, q) := by
  induction is with
  | nil => rfl
  | cons i is ih =>
    rw [processCombos, processSingleCombo_nobody now keycode hkey i q (hup i)
      (hnot i List.mem_cons_self)]
    dsimp only
    rw [ih (fun j hj => hnot j (List.mem_cons_of_mem i hj))]
    rfl

variable (combos) in
theorem processCombos_press (now : BitVec 16) (keycode : Keycode) (hkey : keycode ≠ comboEnd)
    (is : List (Fin n)) (hnodup : is.Nodup) (q : Combos n w m)
    (hidle : ∀ j, (q.combos j).active → (q.combos j).disabled)
    (hup : ∀ j ∈ is, ∀ b, (combos j).keyIndex keycode = some b →
      (q.combos j).state.getLsbD b = false)
    (hplaces : q.FindPlaces combos now keycode is) :
    (q.processCombos combos now keycode true is).1 = is.any (q.takesPart combos keycode) ∧
      Pressed combos keycode q (q.processCombos combos now keycode true is).2 ∧
      ∀ j ∈ is, q.enabled →
        ((q.processCombos combos now keycode true is).2.combos j).disabled = false →
        ∀ b, (combos j).keyIndex keycode = some b → b < w →
          ((q.processCombos combos now keycode true is).2.combos j).state.getLsbD b := by
  induction is generalizing q with
  | nil =>
    exact ⟨rfl, .refl keycode q, fun j hj => absurd hj List.not_mem_nil⟩
  | cons i is ih =>
    obtain ⟨hnew, hrest⟩ := List.nodup_cons.mp hnodup
    obtain ⟨hplace, hlater⟩ := hplaces
    cases hpart : q.takesPart combos keycode i with
    | false =>
      -- a combo that takes no part is left as it is
      have hnobody := processSingleCombo_nobody now keycode hkey i q
        (hup i List.mem_cons_self) hpart
      rw [hnobody] at hlater
      obtain ⟨hany, hpressed, htook⟩ :=
        ih hrest q hidle (fun j hj => hup j (List.mem_cons_of_mem i hj)) hlater
      rw [processCombos, hnobody]
      dsimp only
      rw [List.any_cons, hpart]
      refine ⟨by rw [hany], hpressed, fun j hj henabled hon b hb hlt => ?_⟩
      rcases List.mem_cons.mp hj with rfl | hj
      · -- it would have taken part
        have hwas : (q.combos j).disabled = false := by
          refine Bool.eq_false_of_not_eq_true (fun hcon => ?_)
          exact Bool.false_ne_true (hon.symm.trans (hpressed.disabled j hcon))
        unfold takesPart at hpart
        rw [hwas, henabled, hb] at hpart
        exact absurd hpart (by simp)
      · exact htook j hj henabled hon b hb hlt
    | true =>
      have hboth := hpart
      unfold takesPart at hboth
      rw [Bool.and_eq_true, Bool.and_eq_true, Bool.not_eq_true'] at hboth
      obtain ⟨⟨hon, henabled⟩, hsome⟩ := hboth
      obtain ⟨index, hindex⟩ := Option.isSome_iff_exists.mp hsome
      have hquiet : (q.combos i).active = false := by
        refine Bool.eq_false_of_not_eq_true (fun hcon => ?_)
        exact Bool.false_ne_true (hon.symm.trans (hidle i hcon))
      -- one that does is pressed, and the rest of the loop goes on from there
      have hturn := chordPress_turned now i index q hquiet (hplace index hindex hpart)
      have hpressed := hturn.pressed hindex hkey hon hquiet
      have hone : q.processSingleCombo combos now keycode true i =
          (true, q.chordPress combos now i index) := by
        unfold processSingleCombo
        rw [hindex]
        dsimp only
        rw [hon, henabled]
        rfl
      rw [hone] at hlater
      obtain ⟨-, hmore, htook⟩ := ih hrest (q.chordPress combos now i index)
        (fun j hj => hpressed.disabled j (hidle j ((hpressed.active j).symm.trans hj)))
        (fun j hj b hb => by
          rw [hturn.others j (fun hji => hnew (hji ▸ hj))]
          exact hup j (List.mem_cons_of_mem i hj) b hb)
        hlater
      rw [processCombos, hone]
      dsimp only
      rw [List.any_cons, hpart]
      refine ⟨rfl, hpressed.trans hmore, fun j hj _ hlast b hb hlt => ?_⟩
      rcases List.mem_cons.mp hj with rfl | hj
      · -- its bit is set now, and no combo after it takes it away
        refine hmore.kept j b ?_
        rw [hturn.state, ComboState.getLsbD_keyDown]
        obtain rfl : index = b := Option.some.inj (hindex.symm.trans hb)
        rw [decide_eq_true hlt, decide_eq_true rfl, Bool.and_true, Bool.or_true]
      · exact htook j hj (hturn.enabled.trans henabled) hlast b hb hlt

end Combos

end K530
