import K530.Bluetooth.Frame
import K530.Theory.Spi.Shifter

/-!
# Torn Frames

The main loop replaces the transmit buffer whenever it has something to say,
and the interrupt shifts it out a byte at a time whenever the module asks. A
frame replaced while it is being shifted out is torn: the module gets the front
of one frame and the back of another.

A `schedule` is an interleaving of the two, with the places of the loads in it
but not what they load. Frames that happen to agree on the bytes still to come can
be swapped without anyone noticing, but an interleaving is safe only if it is so
whatever is loaded, and that is the case exactly when every transaction starts after
some load and is not interrupted by another: `untorn_iff_undisturbed`.

Nothing in the code keeps a load out of a transaction. Masking the interrupt for the
length of the copy makes the load one step, as it is here, and does not help.

## Main definitions

* `Event`: A load, or a byte from the module.

## Theorems

* `wireStep_buffered`: The buffer holds the last frame loaded.
* `untorn_iff_undisturbed`: A schedule is safe for all frames exactly when it is
  undisturbed.
-/

namespace K530

namespace Spi

open StepRun

/-- One step of a schedule: the main loop loads a frame, or a byte comes in. -/
inductive Event where
  | load
  | byte (now : BitVec 32) (rx : Byte)
  deriving DecidableEq

namespace Event

def isLoad : Event → Bool
  | .load => true
  | .byte _ _ => false

/-- The byte of a byte step. -/
def rx? : Event → Option Byte
  | .load => none
  | .byte _ rx => some rx

end Event

/-- How many frames a schedule loads. -/
def loads (events : List Event) : Nat :=
  events.countP Event.isLoad

/-- The bytes a schedule receives. -/
def bytesOf (events : List Event) : List Byte :=
  events.filterMap Event.rx?

/-- A schedule step, the `n`-th load loading the frame `frames n`. The state is
    the interrupt's and the number of loads so far. -/
def wireStep (frames : Nat → TxFrame) (w : Spi × Nat) : Event → (Spi × Nat) × Option Byte
  | .load => ((loadTxBuffer (frames w.2) w.1, w.2 + 1), none)
  | .byte now rx =>
    (((spi0Isr now w.1 rx).1, w.2), some (spi0Isr now w.1 rx).2.resp)

/-- The bytes shifted out along a schedule. -/
def responses (frames : Nat → TxFrame) (w : Spi × Nat) (events : List Event) : List Byte :=
  (trace (wireStep frames) w events).filterMap id

theorem responses_append (frames : Nat → TxFrame) (w : Spi × Nat) (es fs : List Event) :
    responses frames w (es ++ fs) =
      responses frames w es ++ responses frames (run (next (wireStep frames)) w es) fs := by
  unfold responses
  rw [trace_append, List.filterMap_append]

/-- The state a schedule leads to from reset. -/
def wire (frames : Nat → TxFrame) (events : List Event) : Spi × Nat :=
  run (next (wireStep frames)) (reset, 0) events

/-- A poll in a schedule and the thirty-eight bytes after it, none of them a
    poll. `mid` runs to the last of them, loads included. -/
structure Transaction (schedule : List Event) where
  pre : List Event
  mid : List Event
  post : List Event
  polledAt : BitVec 32
  lastAt : BitVec 32
  last : Byte
  split : schedule = pre ++ .byte polledAt cmdTxpoll :: (mid ++ .byte lastAt last :: post)
  quiet : cmdTxpoll ∉ bytesOf mid
  lastQuiet : last ≠ cmdTxpoll
  full : (bytesOf mid).length = 37

/-- What the module reads in a transaction. -/
def Transaction.responses {schedule : List Event} (frames : Nat → TxFrame)
    (t : Transaction schedule) : List Byte :=
  Spi.responses frames (wire frames t.pre)
    (.byte t.polledAt cmdTxpoll :: (t.mid ++ [.byte t.lastAt t.last]))

/-- Every transaction reads one frame that was loaded by its end. -/
def Untorn (frames : Nat → TxFrame) (schedule : List Event) : Prop :=
  ∀ t : Transaction schedule, ∃ n < loads (t.pre ++ t.mid),
    t.responses frames = (frames n).toList

/-- Every transaction has a load before it and none between its poll and the
    last of its bytes. -/
def Undisturbed (schedule : List Event) : Prop :=
  ∀ t : Transaction schedule, 0 < loads t.pre ∧ loads t.mid = 0

def buffered (frames : Nat → TxFrame) : Nat → TxFrame
  | 0 => reset.txFrame
  | n + 1 => frames n

def Buffered (frames : Nat → TxFrame) (n : Nat) (w : Spi × Nat) : Prop :=
  w.2 = n ∧ w.1.txFrame = buffered frames n

theorem wireStep_buffered (frames : Nat → TxFrame) (n : Nat) (w : Spi × Nat) (e : Event)
    (h : Buffered frames n w) :
    Buffered frames (n + loads [e]) (wireStep frames w e).1 := by
  cases e with
  | load =>
    refine ⟨?_, ?_⟩
    · simp only [wireStep, h.1, loads, List.countP_singleton, Event.isLoad, if_true]
    · simp only [wireStep, h.1, loads, List.countP_singleton, Event.isLoad, if_true, buffered,
        loadTxBuffer]
  | byte now rx =>
    refine ⟨h.1, ?_⟩
    exact (isr_txFrame w.1 (now, rx)).trans h.2

theorem loads_cons (e : Event) (es : List Event) : loads (e :: es) = loads [e] + loads es := by
  rw [← List.singleton_append]
  exact List.countP_append

theorem run_buffered (frames : Nat → TxFrame) (es : List Event) :
    ∀ n w, Buffered frames n w →
      Buffered frames (n + loads es) (run (next (wireStep frames)) w es) := by
  induction es with
  | nil =>
    intro n w h
    exact h
  | cons e es ih =>
    intro n w h
    rw [loads_cons, ← Nat.add_assoc, run_cons]
    exact ih (n + loads [e]) _ (wireStep_buffered frames n w e h)

theorem wire_buffered (frames : Nat → TxFrame) (es : List Event) :
    Buffered frames (loads es) (wire frames es) := by
  have h := run_buffered frames es 0 (reset, 0) ⟨rfl, rfl⟩
  rwa [Nat.zero_add] at h

def Shifting (k : Nat) (w : Spi × Nat) : Prop :=
  Sending w.1.txFrame (BitVec.ofNat 8 k) w.1

theorem wireStep_shifting (frames : Nat → TxFrame) (k : Nat) (w : Spi × Nat) (e : Event)
    (h : Shifting k w) (hquiet : cmdTxpoll ∉ bytesOf [e]) :
    Shifting (k + (bytesOf [e]).length) (wireStep frames w e).1 := by
  cases e with
  | load =>
    -- the copy leaves the index where it is
    exact ⟨h.1, rfl, h.2.2⟩
  | byte now rx =>
    have hne : rx ≠ cmdTxpoll := fun hc => hquiet (by rw [hc]; exact List.mem_singleton_self _)
    have hstep := (isr_sending (now, rx) w.1.txFrame _ w.1 h hne).1
    rw [← isr_txFrame w.1 (now, rx)] at hstep
    unfold Shifting
    rw [show (bytesOf [Event.byte now rx]).length = 1 from rfl, BitVec.ofNat_add]
    exact hstep

theorem bytesOf_cons (e : Event) (es : List Event) :
    bytesOf (e :: es) = bytesOf [e] ++ bytesOf es := by
  unfold bytesOf
  rw [← List.filterMap_append, List.singleton_append]

theorem run_shifting (frames : Nat → TxFrame) (es : List Event) :
    ∀ k w, Shifting k w → cmdTxpoll ∉ bytesOf es →
      Shifting (k + (bytesOf es).length) (run (next (wireStep frames)) w es) := by
  induction es with
  | nil =>
    intro k w h _
    exact h
  | cons e es ih =>
    intro k w h hquiet
    rw [bytesOf_cons, List.mem_append, not_or] at hquiet
    rw [bytesOf_cons, List.length_append, ← Nat.add_assoc, run_cons]
    exact ih _ _ (wireStep_shifting frames k w e h hquiet.1) hquiet.2

theorem shifting_resp (k : Nat) (w : Spi × Nat) (now : BitVec 32) (rx : Byte)
    (h : Shifting k w) (hrx : rx ≠ cmdTxpoll) (hk : k < 39) :
    (spi0Isr now w.1 rx).2.resp = w.1.txFrame.toList.getD k 0 := by
  have hstep := (isr_sending (now, rx) w.1.txFrame _ w.1 h hrx).2
  rwa [BitVec.toNat_ofNat, Nat.mod_eq_of_lt (by omega)] at hstep

theorem take_drop_succ (bytes : List Byte) (k n : Nat) (hk : k < bytes.length) :
    (bytes.drop k).take (n + 1) = bytes.getD k 0 :: (bytes.drop (k + 1)).take n := by
  rw [List.drop_eq_getElem_cons hk, List.take_succ_cons,
    List.getD_eq_getElem?_getD, List.getElem?_eq_getElem hk, Option.getD_some]

theorem responses_of_quiet (frames : Nat → TxFrame) (es : List Event) :
    ∀ k w, Shifting k w → loads es = 0 → cmdTxpoll ∉ bytesOf es →
      k + (bytesOf es).length ≤ 39 →
        responses frames w es = (w.1.txFrame.toList.drop k).take (bytesOf es).length := by
  induction es with
  | nil =>
    intro k w _ _ _ _
    rfl
  | cons e es ih =>
    intro k w h hloads hquiet hlen
    cases e with
    | load =>
      rw [loads_cons, show loads [Event.load] = 1 from rfl] at hloads
      exact absurd hloads (by omega)
    | byte now rx =>
      have hnext := wireStep_shifting frames k w (.byte now rx) h
      rw [bytesOf_cons, List.mem_append, not_or] at hquiet
      rw [loads_cons, Nat.add_eq_zero_iff] at hloads
      rw [bytesOf_cons, List.length_append,
        show (bytesOf [Event.byte now rx]).length = 1 from rfl] at hlen ⊢
      have hne : rx ≠ cmdTxpoll :=
        fun hc => hquiet.1 (by rw [hc]; exact List.mem_singleton_self _)
      have hrest := ih (k + 1) _ (hnext hquiet.1) hloads.2 hquiet.2 (by omega)
      have hframe : (wireStep frames w (.byte now rx)).1.1.txFrame = w.1.txFrame :=
        isr_txFrame w.1 (now, rx)
      rw [hframe] at hrest
      rw [Nat.add_comm 1, take_drop_succ _ _ _ (by rw [Vector.length_toList]; omega), ← hrest,
        ← shifting_resp k w now rx h hne (by omega)]
      rfl

theorem poll_shifting (frames : Nat → TxFrame) (w : Spi × Nat) (now : BitVec 32) :
    Shifting 1 (wireStep frames w (.byte now cmdTxpoll)).1 ∧
      (spi0Isr now w.1 cmdTxpoll).2.resp = w.1.txFrame.toList.getD 0 0 := by
  have hpoll := isr_poll_sending now w.1
  rw [← isr_txFrame w.1 (now, cmdTxpoll)] at hpoll
  refine ⟨hpoll.1, ?_⟩
  have hresp := hpoll.2
  rwa [isr_txFrame] at hresp

namespace Transaction

variable {schedule : List Event} (frames : Nat → TxFrame) (t : Transaction schedule)

theorem responses_of_quiet (hloads : loads t.mid = 0) :
    t.responses frames = (buffered frames (loads t.pre)).toList := by
  have hpoll := poll_shifting frames (wire frames t.pre) t.polledAt
  have hframe : (wireStep frames (wire frames t.pre) (.byte t.polledAt cmdTxpoll)).1.1.txFrame =
      buffered frames (loads t.pre) :=
    (isr_txFrame _ (t.polledAt, cmdTxpoll)).trans (wire_buffered frames t.pre).2
  have hbytes : (bytesOf (t.mid ++ [.byte t.lastAt t.last])) = bytesOf t.mid ++ [t.last] :=
    List.filterMap_append
  have hrest := Spi.responses_of_quiet frames (t.mid ++ [.byte t.lastAt t.last]) 1 _ hpoll.1
    (by unfold loads at hloads ⊢; rw [List.countP_append, hloads]; rfl)
    (by
      rw [hbytes, List.mem_append, List.mem_singleton, not_or]
      exact ⟨t.quiet, Ne.symm t.lastQuiet⟩)
    (by rw [hbytes, List.length_append, t.full]; exact Nat.le_refl 39)
  rw [hframe, hbytes, List.length_append, t.full] at hrest
  have hall := take_drop_succ (buffered frames (loads t.pre)).toList 0 38
    (by rw [Vector.length_toList]; decide)
  rw [(wire_buffered frames t.pre).2] at hpoll
  rw [List.drop_zero, List.take_of_length_le (by rw [Vector.length_toList]), ← hpoll.2] at hall
  rw [hall]
  exact congrArg (List.cons _) hrest

theorem responses_ends :
    (t.responses frames).head? =
        some ((buffered frames (loads t.pre)).toList.getD 0 0) ∧
      (t.responses frames).getLast? =
        some ((buffered frames (loads t.pre + loads t.mid)).toList.getD 38 0) := by
  have hpoll := poll_shifting frames (wire frames t.pre) t.polledAt
  refine ⟨?_, ?_⟩
  · rw [← (wire_buffered frames t.pre).2, ← hpoll.2]
    rfl
  · have hbuf := run_buffered frames t.mid (loads t.pre) _
      (wireStep_buffered frames (loads t.pre) (wire frames t.pre) (.byte t.polledAt cmdTxpoll)
        (wire_buffered frames t.pre))
    have hshift := run_shifting frames t.mid 1 _ hpoll.1 t.quiet
    rw [t.full] at hshift
    have hlast := shifting_resp 38 _ t.lastAt t.last hshift t.lastQuiet (by omega)
    rw [hbuf.2] at hlast
    unfold responses
    rw [← List.cons_append, responses_append, ← hlast]
    exact List.getLast?_concat

end Transaction

theorem loads_append (es fs : List Event) : loads (es ++ fs) = loads es + loads fs :=
  List.countP_append

def uniform (b : Byte) : TxFrame := Vector.replicate 39 b

theorem uniform_getD (b : Byte) (k : Nat) (hk : k < 39) : (uniform b).toList.getD k 0 = b := by
  unfold uniform
  rw [Vector.toList_replicate, List.getD_eq_getElem?_getD, List.getElem?_replicate, if_pos hk,
    Option.getD_some]

theorem uniform_ends (b : Byte) :
    (uniform b).toList.head? = some b ∧ (uniform b).toList.getLast? = some b := by
  unfold uniform
  rw [Vector.toList_replicate]
  exact ⟨rfl, List.getLast?_replicate.trans (if_neg (by omega))⟩

def zerosThenOnes (p n : Nat) : TxFrame := uniform (if n < p then 0 else 1)

theorem buffered_zerosThenOnes (p n k : Nat) (hk : k < 39) :
    (buffered (zerosThenOnes p) n).toList.getD k 0 = if n ≤ p then 0 else 1 := by
  cases n with
  | zero => exact (uniform_getD 0 k hk).trans (if_pos (Nat.zero_le p)).symm
  | succ n =>
    unfold buffered zerosThenOnes
    rw [uniform_getD _ k hk]
    rfl

theorem transaction_untorn_iff {schedule : List Event} (t : Transaction schedule) :
    (∀ frames, ∃ n < loads (t.pre ++ t.mid), t.responses frames = (frames n).toList) ↔
      0 < loads t.pre ∧ loads t.mid = 0 := by
  constructor
  · intro h
    -- a frame loaded after the poll shows in the last byte, and so does the
    -- buffer nobody has loaded in the first
    rcases h (zerosThenOnes (loads t.pre)) with ⟨n, -, heq⟩
    have hends := t.responses_ends (zerosThenOnes (loads t.pre))
    have huni := uniform_ends (if n < loads t.pre then 0 else 1)
    rw [heq, buffered_zerosThenOnes _ _ _ (by omega), buffered_zerosThenOnes _ _ _ (by omega),
      if_pos (Nat.le_refl _)] at hends
    have hfirst := Option.some.inj (huni.1.symm.trans hends.1)
    have hlast := Option.some.inj (huni.2.symm.trans hends.2)
    have hn : n < loads t.pre := by
      by_contra hge
      rw [if_neg hge] at hfirst
      exact absurd hfirst (by decide)
    rw [if_pos hn] at hlast
    have hmid : loads t.pre + loads t.mid ≤ loads t.pre := by
      by_contra hgt
      rw [if_neg hgt] at hlast
      exact absurd hlast (by decide)
    omega
  · intro h frames
    -- the frame read is the last one loaded before the poll
    refine ⟨loads t.pre - 1, ?_, ?_⟩
    · rw [loads_append]
      omega
    · rw [t.responses_of_quiet frames h.2]
      cases hpre : loads t.pre with
      | zero =>
        rw [hpre] at h
        exact absurd h.1 (Nat.lt_irrefl 0)
      | succ n => rfl

/-- A schedule is safe whatever it loads exactly when no transaction of it is
    disturbed. -/
theorem untorn_iff_undisturbed (schedule : List Event) :
    (∀ frames, Untorn frames schedule) ↔ Undisturbed schedule := by
  constructor
  · intro h t
    exact (transaction_untorn_iff t).mp (fun frames => h frames t)
  · intro h frames t
    exact (transaction_untorn_iff t).mpr (h t) frames

def aPressed (n : Nat) : TxFrame :=
  Frame.buildKeyboardFrame false
    (if n = 0 then Report.empty else Report.ofKeys 0 #v[0x04, 0, 0, 0, 0, 0])

def pressMidway : List Event :=
  [.load] ++ .byte 0 cmdTxpoll ::
    ((List.replicate 11 (.byte 0 0) ++ .load :: List.replicate 26 (.byte 0 0)) ++
      .byte 0 0 :: [])

/-- The module reads a frame without the key and with the checksum of the frame
    that has it. -/
theorem pressMidway_torn : ¬ ∀ schedule frames, Untorn frames schedule := by
  intro h
  rcases h pressMidway aPressed
    { pre := [.load],
      mid := List.replicate 11 (.byte 0 0) ++ .load :: List.replicate 26 (.byte 0 0),
      post := [], polledAt := 0, lastAt := 0, last := 0, split := rfl, quiet := by decide,
      lastQuiet := by decide, full := by decide } with ⟨n, -, heq⟩
  cases n with
  | zero => exact absurd heq (by decide +kernel)
  | succ n =>
    have hlater : aPressed (n + 1) = aPressed 1 := rfl
    rw [hlater] at heq
    exact absurd heq (by decide +kernel)

end Spi

end K530
