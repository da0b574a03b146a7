import K530.Lib.OnOff
import K530.Quantum.KeyboardTask
import K530.Theory.Tapping.Paired
import Mathlib.Data.Fintype.Prod

/-!
# No Key Event Is Lost

A call turns over the bit of one key, the event it sends is what the key has
come to, and it is of a key whose bit was different. So a key's bit is what its
last event was, and its events are presses and releases in turn.

While the matrix stays the same no key that agrees is touched, and every call
takes one from those that differ. After as many calls as there are keys none is
left.

## Main definitions

* `keyHistory`: What the events say of a key.

## Theorems

* `changedKey_spec`: The key that is found.
* `keyboard_task_law`: Over every run.
-/

namespace K530

variable {s : MatrixShape}

/-! ### Bits -/

theorem colMask_eq (col : Fin s.cols) : colMask s col = BitVec.twoPow s.width col.val :=
  (BitVec.twoPow_eq s.width col.val).symm

theorem getLsbD_colMask (col : Fin s.cols) (i : Nat) :
    (colMask s col).getLsbD i = decide (col.val = i) := by
  have hcol := Nat.lt_of_lt_of_le col.isLt s.cols_le_width
  rw [colMask_eq, BitVec.getLsbD_twoPow, decide_eq_true hcol, Bool.true_and]

theorem and_colMask (x : BitVec s.width) (col : Fin s.cols) :
    (x &&& colMask s col != 0) = x.getLsbD col.val := by
  have hmask := getLsbD_colMask col col.val
  cases hbit : x.getLsbD col.val with
  | false =>
    rw [colMask_eq, BitVec.and_twoPow, hbit]
    exact bne_self_eq_false _
  | true =>
    rw [bne_iff_ne]
    intro hzero
    have hand := congrArg (fun y => BitVec.getLsbD y col.val) hzero
    simp [hbit, hmask] at hand

theorem taskEvent_pressed (c : TaskCall s) (key : s.Key) :
    (taskEvent c key).pressed = isDown c.matrix key :=
  and_colMask _ _

theorem isDown_recordKey (prev : s.Matrix) (key other : s.Key) :
    isDown (recordKey prev key) other =
      if other = key then !isDown prev key else isDown prev other := by
  unfold isDown recordKey
  by_cases hrow : other.1 = key.1
  · rw [hrow, Function.update_self, BitVec.getLsbD_xor, getLsbD_colMask]
    by_cases hcol : other.2 = key.2
    · rw [if_pos (Prod.ext hrow hcol), hcol, decide_eq_true rfl, Bool.xor_true]
    · rw [if_neg (fun h => hcol (congrArg Prod.snd h)),
        decide_eq_false (fun h => hcol (Fin.ext h).symm), Bool.xor_false]
  · rw [Function.update_of_ne hrow, if_neg (fun h => hrow (congrArg Prod.fst h))]

/-! ### A call -/

theorem changedCol_spec (change : BitVec s.width) :
    match changedCol s change with
    | some col => change.getLsbD col.val = true
    | none => ∀ col : Fin s.cols, change.getLsbD col.val = false := by
  unfold changedCol
  cases hfind : (List.finRange s.cols).find? (fun col => change &&& colMask s col != 0) with
  | some col =>
    have hcol := List.find?_some hfind
    rwa [and_colMask] at hcol
  | none =>
    intro col
    have hcol := List.find?_eq_none.mp hfind col (List.mem_finRange col)
    rwa [and_colMask, Bool.not_eq_true] at hcol

theorem changedKey_spec (matrix prev : s.Matrix) :
    match changedKey matrix prev with
    | some key => isDown matrix key ≠ isDown prev key
    | none => ∀ key, isDown matrix key = isDown prev key := by
  have hbit : ∀ row (col : Fin s.cols), (matrix row ^^^ prev row).getLsbD col.val =
      (isDown matrix (row, col) ^^ isDown prev (row, col)) :=
    fun row col => BitVec.getLsbD_xor
  cases hfind : changedKey matrix prev with
  | some key =>
    obtain ⟨row, _, hrow⟩ := List.exists_of_findSome?_eq_some hfind
    dsimp only at hrow
    by_cases hchange : (matrix row ^^^ prev row != 0) = true
    · rw [if_pos hchange] at hrow
      obtain ⟨col, hcol, rfl⟩ := Option.map_eq_some_iff.mp hrow
      have hspec := changedCol_spec (matrix row ^^^ prev row)
      rw [hcol] at hspec
      dsimp only at hspec
      rw [hbit] at hspec
      simpa using hspec
    · -- A row that is as it was yields no key.
      rw [if_neg hchange] at hrow
      exact absurd hrow (by simp)
  | none =>
    intro ⟨row, col⟩
    have hrow := List.findSome?_eq_none_iff.mp hfind row (List.mem_finRange row)
    dsimp only at hrow
    have hzero : (matrix row ^^^ prev row).getLsbD col.val = false := by
      -- Either the row has been gone through, or it is as it was.
      by_cases hchange : (matrix row ^^^ prev row != 0) = true
      · rw [if_pos hchange, Option.map_eq_none_iff] at hrow
        have hspec := changedCol_spec (matrix row ^^^ prev row)
        rw [hrow] at hspec
        exact hspec col
      · rw [bne_iff_ne, not_not] at hchange
        rw [hchange]
        exact BitVec.getLsbD_zero
    rw [hbit] at hzero
    simpa using hzero

theorem keyboardTask_cases (prev : s.Matrix) (c : TaskCall s) :
    (∃ key, isDown c.matrix key ≠ isDown prev key ∧
      keyboardTask prev c =
        (recordKey prev key, if c.shouldProcessKeypress then [taskEvent c key] else [])) ∨
    (∀ key, isDown c.matrix key = isDown prev key) ∧
      keyboardTask prev c = (prev, [TaskEvent.tick c.now]) := by
  have hspec := changedKey_spec c.matrix prev
  unfold keyboardTask
  cases hfind : changedKey c.matrix prev with
  | some key =>
    rw [hfind] at hspec
    exact Or.inl ⟨key, hspec, rfl⟩
  | none =>
    rw [hfind] at hspec
    exact Or.inr ⟨hspec, rfl⟩

/-! ### Events -/

/-- The events that are of a key. -/
def keyEvents (events : List TaskEvent) : List TaskEvent :=
  events.filter (fun e => !e.isNoEvent)

/-- What the events say of a key. -/
def keyHistory (key : s.Key) (events : List TaskEvent) : List Bool :=
  History.history ((keyEvents events).map (fun e => (e.pressed, (e.row, e.col))))
    (key.1.val, key.2.val)

theorem keyHistory_append (key : s.Key) (events more : List TaskEvent) :
    keyHistory key (events ++ more) = keyHistory key events ++ keyHistory key more := by
  unfold keyHistory keyEvents
  rw [List.filter_append, List.map_append, History.history_append]

theorem taskEvent_counts (c : TaskCall s) (key : s.Key) :
    (taskEvent c key).isNoEvent = false := by
  have hcol := Nat.lt_of_lt_of_le key.2.isLt s.cols_le
  have htime : c.now ||| 1 ≠ 0 := by
    -- The lowest bit is set, whatever the timer says.
    intro hzero
    have hbit := congrArg (fun t => BitVec.getLsbD t 0) hzero
    simp at hbit
  unfold TaskEvent.isNoEvent taskEvent
  simp only [Bool.or_eq_false_iff, Bool.and_eq_false_iff, beq_eq_false_iff_ne]
  exact ⟨htime, Or.inr (by omega)⟩

theorem keyEvents_taskEvent (c : TaskCall s) (key : s.Key) :
    keyEvents [taskEvent c key] = [taskEvent c key] := by
  unfold keyEvents
  rw [List.filter_cons, taskEvent_counts]
  rfl

theorem keyEvents_tick (now : BitVec 16) : keyEvents [TaskEvent.tick now] = [] := by
  unfold keyEvents TaskEvent.isNoEvent TaskEvent.tick
  simp

theorem keyHistory_taskEvent (c : TaskCall s) (key other : s.Key) :
    keyHistory other [taskEvent c key] =
      if other = key then [isDown c.matrix key] else [] := by
  have hsame : ((key.1.val, key.2.val) = (other.1.val, other.2.val)) ↔ other = key := by
    rw [Prod.mk.injEq, ← Fin.ext_iff, ← Fin.ext_iff, ← Prod.ext_iff, eq_comm]
  unfold keyHistory
  rw [keyEvents_taskEvent, List.map_singleton, taskEvent_pressed, ← List.nil_append [_],
    History.history_concat, History.history_nil, List.nil_append]
  exact if_congr hsame rfl rfl

theorem keyHistory_tick (now : BitVec 16) (key : s.Key) :
    keyHistory key [TaskEvent.tick now] = [] := by
  unfold keyHistory
  rw [keyEvents_tick]
  rfl

theorem keyboardTask_key (prev : s.Matrix) (c : TaskCall s)
    (hprocess : c.shouldProcessKeypress) (key : s.Key) :
    (isDown c.matrix key ≠ isDown prev key ∧
      isDown (keyboardTask prev c).1 key = isDown c.matrix key ∧
      keyHistory key (keyboardTask prev c).2 = [isDown c.matrix key]) ∨
    (isDown (keyboardTask prev c).1 key = isDown prev key ∧
      keyHistory key (keyboardTask prev c).2 = []) := by
  rcases keyboardTask_cases prev c with ⟨changed, hchanged, htask⟩ | ⟨_, htask⟩
  · rw [htask, if_pos hprocess, isDown_recordKey, keyHistory_taskEvent]
    -- The key that is found has the event, and no other key has anything.
    by_cases hkey : key = changed
    · subst hkey
      rw [if_pos rfl, if_pos rfl]
      exact Or.inl ⟨hchanged, (Bool.eq_not_of_ne hchanged).symm, rfl⟩
    · rw [if_neg hkey, if_neg hkey]
      exact Or.inr ⟨rfl, rfl⟩
  · rw [htask, keyHistory_tick]
    exact Or.inr ⟨rfl, rfl⟩

/-! ### Runs -/

theorem alternates_concat (b : Bool) (xs : List Bool) (x : Bool) :
    alternates b (xs ++ [x]) =
      (alternates b xs && x == (xs.getLast?.elim b (fun last => !last))) := by
  induction xs generalizing b with
  | nil => simp [alternates]
  | cons y ys ih =>
    rw [List.cons_append, alternates, alternates, ih, Bool.and_assoc]
    cases hb : y == b with
    | false => rfl
    | true =>
      rw [beq_iff_eq] at hb
      subst hb
      -- The first is as it should be, and the last is that of the rest if there is one.
      cases hlast : ys.getLast? with
      | none => simp [List.getLast?_eq_none_iff.mp hlast]
      | some last => simp [List.getLast?_cons, hlast]

/-- All events of some calls. -/
def eventsOf (calls : List (TaskCall s)) : List TaskEvent := (executed [] calls).flatten

theorem matrixPrev_concat (calls : List (TaskCall s)) (c : TaskCall s) :
    matrixPrev (calls ++ [c]) = (keyboardTask (matrixPrev calls) c).1 :=
  StepRun.run_concat ..

theorem keyHistory_concat (key : s.Key) (calls : List (TaskCall s)) (c : TaskCall s) :
    keyHistory key (eventsOf (calls ++ [c])) =
      keyHistory key (eventsOf calls) ++ keyHistory key (keyboardTask (matrixPrev calls) c).2 := by
  rw [← keyHistory_append]
  unfold eventsOf executed
  rw [StepRun.trace_append, List.flatten_append]
  congr 2
  exact List.append_nil _

theorem matrixPrev_held (calls : List (TaskCall s))
    (hprocess : ∀ c ∈ calls, c.shouldProcessKeypress) (key : s.Key) :
    alternates true (keyHistory key (eventsOf calls)) ∧
      isDown (matrixPrev calls) key =
        (keyHistory key (eventsOf calls)).getLast?.elim false (fun last => last) := by
  induction calls using List.reverseRecOn with
  | nil => exact ⟨rfl, BitVec.getLsbD_zero⟩
  | append_singleton calls c ih =>
    obtain ⟨halternate, hheld⟩ := ih (fun c' hc' => hprocess c' (List.mem_append_left _ hc'))
    rw [keyHistory_concat, matrixPrev_concat]
    rcases keyboardTask_key (matrixPrev calls) c (hprocess c (by simp)) key with
      ⟨hdiffers, hbit, hhistory⟩ | ⟨hbit, hhistory⟩
    · rw [hbit, hhistory, alternates_concat, halternate, Bool.true_and, beq_iff_eq,
        List.getLast?_concat]
      refine ⟨?_, rfl⟩
      -- A bit that is turned over is the opposite of the last event.
      rw [Bool.eq_not_of_ne hdiffers, hheld]
      cases (keyHistory key (eventsOf calls)).getLast? with
      | none => rfl
      | some last => rfl
    · rw [hbit, hhistory, List.append_nil]
      exact ⟨halternate, hheld⟩

/-! ### A matrix that stays the same -/

def differing (matrix prev : s.Matrix) : Finset s.Key :=
  Finset.univ.filter (fun key => isDown matrix key ≠ isDown prev key)

theorem mem_differing (matrix prev : s.Matrix) (key : s.Key) :
    key ∈ differing matrix prev ↔ isDown matrix key ≠ isDown prev key := by
  simp [differing]

theorem card_differing_le (matrix prev : s.Matrix) :
    (differing matrix prev).card ≤ s.rows * s.cols := by
  have hle := Finset.card_le_univ (differing matrix prev)
  rwa [Fintype.card_prod, Fintype.card_fin, Fintype.card_fin] at hle

theorem differing_keyboardTask (prev : s.Matrix) (c : TaskCall s) :
    (differing c.matrix (keyboardTask prev c).1).card = (differing c.matrix prev).card - 1 := by
  rcases keyboardTask_cases prev c with ⟨changed, hchanged, htask⟩ | ⟨hnone, htask⟩
  · have herase : differing c.matrix (recordKey prev changed) =
        (differing c.matrix prev).erase changed := by
      ext key
      rw [Finset.mem_erase, mem_differing, mem_differing, isDown_recordKey]
      by_cases hkey : key = changed
      · subst hkey
        rw [if_pos rfl, Bool.eq_not_of_ne hchanged]
        simp
      · rw [if_neg hkey]
        simp [hkey]
    rw [htask, herase, Finset.card_erase_of_mem ((mem_differing _ _ _).mpr hchanged)]
  · -- A call that finds none leaves none, and nothing less one is nothing.
    have hempty : differing c.matrix prev = ∅ := by
      ext key
      simp [mem_differing, hnone key]
    rw [htask, hempty]
    rfl

theorem differing_run (matrix : s.Matrix) (calls : List (TaskCall s)) (prev : s.Matrix)
    (hsame : ∀ c ∈ calls, c.matrix = matrix) :
    (differing matrix (StepRun.run (StepRun.next keyboardTask) prev calls)).card =
      (differing matrix prev).card - calls.length := by
  induction calls generalizing prev with
  | nil => rfl
  | cons c calls ih =>
    have hstep := differing_keyboardTask prev c
    rw [hsame c List.mem_cons_self] at hstep
    rw [StepRun.run_cons, ih _ (fun c' hc' => hsame c' (List.mem_cons_of_mem c hc'))]
    rw [show StepRun.next keyboardTask prev c = (keyboardTask prev c).1 from rfl, hstep,
      List.length_cons]
    omega

theorem agrees_run (matrix : s.Matrix) (calls : List (TaskCall s)) (prev : s.Matrix)
    (hsame : ∀ c ∈ calls, c.matrix = matrix) (key : s.Key)
    (hprocess : ∀ c ∈ calls, c.shouldProcessKeypress)
    (hagrees : isDown prev key = isDown matrix key) :
    isDown (StepRun.run (StepRun.next keyboardTask) prev calls) key = isDown matrix key ∧
      keyHistory key (StepRun.trace keyboardTask prev calls).flatten = [] := by
  induction calls generalizing prev with
  | nil => exact ⟨hagrees, rfl⟩
  | cons c calls ih =>
    rcases keyboardTask_key prev c (hprocess c List.mem_cons_self) key with
      ⟨hdiffers, _, _⟩ | ⟨hbit, hhistory⟩
    · -- The key agrees, so it is not the one that is found.
      rw [hsame c List.mem_cons_self] at hdiffers
      exact absurd hagrees.symm hdiffers
    · have hrest := ih (keyboardTask prev c).1
        (fun c' hc' => hsame c' (List.mem_cons_of_mem c hc'))
        (fun c' hc' => hprocess c' (List.mem_cons_of_mem c hc')) (hbit.trans hagrees)
      refine ⟨hrest.1, ?_⟩
      rw [StepRun.trace, List.flatten_cons, keyHistory_append, hhistory, hrest.2]
      rfl

theorem differs_run (matrix : s.Matrix) (calls : List (TaskCall s)) (prev : s.Matrix)
    (hsame : ∀ c ∈ calls, c.matrix = matrix) (key : s.Key)
    (hprocess : ∀ c ∈ calls, c.shouldProcessKeypress)
    (hdiffers : isDown prev key ≠ isDown matrix key)
    (hend : isDown (StepRun.run (StepRun.next keyboardTask) prev calls) key = isDown matrix key) :
    keyHistory key (StepRun.trace keyboardTask prev calls).flatten = [isDown matrix key] := by
  induction calls generalizing prev with
  | nil => exact absurd hend hdiffers
  | cons c calls ih =>
    have hrest := fun c' hc' => hsame c' (List.mem_cons_of_mem c hc')
    have hrest' := fun c' hc' => hprocess c' (List.mem_cons_of_mem c hc')
    rw [StepRun.trace, List.flatten_cons, keyHistory_append]
    rcases keyboardTask_key prev c (hprocess c List.mem_cons_self) key with
      ⟨_, hbit, hhistory⟩ | ⟨hbit, hhistory⟩
    · -- This call sends the event, and from then on the key agrees.
      rw [hsame c List.mem_cons_self] at hbit hhistory
      rw [hhistory, (agrees_run matrix calls _ hrest key hrest' hbit).2]
      rfl
    · rw [hhistory, ih (keyboardTask prev c).1 hrest hrest' (by rwa [hbit]) hend]
      rfl

theorem settles (before during : List (TaskCall s)) (matrix : s.Matrix)
    (hlength : during.length = s.rows * s.cols) (hsame : ∀ c ∈ during, c.matrix = matrix)
    (key : s.Key) : isDown (matrixPrev (before ++ during)) key = isDown matrix key := by
  have hcard := differing_run matrix during (matrixPrev before) hsame
  rw [hlength, Nat.sub_eq_zero_of_le (card_differing_le _ _), Finset.card_eq_zero] at hcard
  -- A key that did not agree would be one that differs.
  by_contra hne
  have hmem := (mem_differing matrix _ key).mpr (Ne.symm hne)
  unfold matrixPrev at hmem
  rw [StepRun.run_append] at hmem
  unfold matrixPrev at hcard
  rw [hcard] at hmem
  exact absurd hmem (Finset.notMem_empty key)

theorem matrixPrev_keys (calls : List (TaskCall s)) (row : Fin s.rows) (i : Nat)
    (hi : s.cols ≤ i) : (matrixPrev calls row).getLsbD i = false := by
  induction calls using List.reverseRecOn with
  | nil => exact BitVec.getLsbD_zero
  | append_singleton calls c ih =>
    rw [matrixPrev_concat]
    rcases keyboardTask_cases (matrixPrev calls) c with ⟨changed, _, htask⟩ | ⟨_, htask⟩
    · rw [htask]
      dsimp only
      unfold recordKey
      by_cases hrow : row = changed.1
      · have hcol := changed.2.isLt
        subst hrow
        -- The mask is that of a column, which is below all others.
        rw [Function.update_self, BitVec.getLsbD_xor, ih, getLsbD_colMask,
          decide_eq_false (by omega)]
        rfl
      · rw [Function.update_of_ne hrow, ih]
    · rw [htask]
      exact ih

/-! ### The law -/

/-- Every key's events are presses and releases in turn, beginning with a press,
    and the key is in `matrix_prev` exactly if the last of them was a press. A
    call has one key event at most, and a tick if it has none. Calls that see the
    same matrix, as many of them as there are keys, end with it in `matrix_prev`,
    and have sent one event for every key that was different. -/
structure TaskEventLaw (s : MatrixShape) : Prop where
  alternate : ∀ calls : List (TaskCall s), (∀ c ∈ calls, c.shouldProcessKeypress = true) →
    ∀ key : s.Key, alternates true (keyHistory key (eventsOf calls)) = true
  held : ∀ calls : List (TaskCall s), (∀ c ∈ calls, c.shouldProcessKeypress = true) →
    ∀ key : s.Key, isDown (matrixPrev calls) key = true ↔
      (keyHistory key (eventsOf calls)).getLast? = some true
  one : ∀ (calls : List (TaskCall s)) (c : TaskCall s), c.shouldProcessKeypress = true →
    (keyEvents (keyboardTask (matrixPrev calls) c).2).length ≤ 1 ∧
      (TaskEvent.tick c.now ∈ (keyboardTask (matrixPrev calls) c).2 ↔
        keyEvents (keyboardTask (matrixPrev calls) c).2 = [])
  settles : ∀ (before during : List (TaskCall s)) (matrix : s.Matrix),
    during.length = s.rows * s.cols → (∀ c ∈ during, c.matrix = matrix) →
      (∀ row i, s.cols ≤ i → (matrix row).getLsbD i = false) →
        matrixPrev (before ++ during) = matrix
  serves : ∀ (before during : List (TaskCall s)) (matrix : s.Matrix),
    during.length = s.rows * s.cols → (∀ c ∈ during, c.matrix = matrix) →
      (∀ c ∈ during, c.shouldProcessKeypress = true) →
        ∀ key : s.Key, keyHistory key (executed before during).flatten =
          if isDown (matrixPrev before) key ≠ isDown matrix key then [isDown matrix key] else []

theorem keyboard_task_law (s : MatrixShape) : TaskEventLaw s where
  alternate calls hprocess key := (matrixPrev_held calls hprocess key).1
  held calls hprocess key := by
    rw [(matrixPrev_held calls hprocess key).2]
    cases (keyHistory key (eventsOf calls)).getLast? with
    | none => simp
    | some last => simp
  one calls c hprocess := by
    rcases keyboardTask_cases (matrixPrev calls) c with ⟨key, _, htask⟩ | ⟨_, htask⟩
    · have hcounts := taskEvent_counts c key
      rw [htask, if_pos hprocess, keyEvents_taskEvent]
      refine ⟨Nat.le_refl 1, iff_of_false (fun htick => ?_) (List.cons_ne_nil _ _)⟩
      -- The event of a key is not a tick, since it counts.
      rw [← List.mem_singleton.mp htick] at hcounts
      exact absurd hcounts (by simp [TaskEvent.isNoEvent, TaskEvent.tick])
    · rw [htask, keyEvents_tick]
      exact ⟨Nat.zero_le 1, iff_of_true List.mem_cons_self rfl⟩
  settles before during matrix hlength hsame hkeys := by
    funext row
    refine BitVec.eq_of_getLsbD_eq (fun i _ => ?_)
    by_cases hi : i < s.cols
    · exact settles before during matrix hlength hsame (row, ⟨i, hi⟩)
    · rw [matrixPrev_keys _ _ _ (by omega), hkeys row i (by omega)]
  serves before during matrix hlength hsame hprocess key := by
    have hend := settles before during matrix hlength hsame key
    unfold matrixPrev at hend
    rw [StepRun.run_append] at hend
    unfold executed
    by_cases hdiffers : isDown (matrixPrev before) key ≠ isDown matrix key
    · rw [if_pos hdiffers]
      exact differs_run matrix during _ hsame key hprocess hdiffers hend
    · rw [if_neg hdiffers]
      exact (agrees_run matrix during _ hsame key hprocess (not_not.mp hdiffers)).2

end K530
