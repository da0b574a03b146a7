import K530.Bluetooth.Spi

/-!
# The Transmit Half

A byte that is not a poll is handled in two halves that do not meet: `receive`
works on the status parser and `respond` on the shifter. The frame lemmas here
say so field by field, and everything after them reasons about one half with
the other out of sight.

The shifter is simple once a poll has been seen. `Sending` says the command is
the poll, which frame is in the buffer, and which byte is next; a byte that is
not a poll answers with that byte and moves on by one, whatever the parser
makes of it. So the answers to a poll and thirty-eight further bytes are the
frame itself, `trace_sending` says, as long as nobody replaces it meanwhile.

The last part lifts this from the byte machine to the interrupt, which answers
the same and latches only status bytes.

## Main definitions

* `Sending`: A poll has been seen, and this byte of this frame goes out next.

## Theorems

* `streams_once_iff`: The frame is read once exactly when nothing of it that
  goes out again shows.
* `streams_once_broken`: A report is read twice by a transfer of 257 bytes.
-/

namespace K530

namespace Spi

open StepRun

theorem rxTxStep_poll (s : Spi) : rxTxStep s cmdTxpoll = poll s := by
  unfold rxTxStep
  rw [if_pos rfl]

theorem rxTxStep_of_ne (s : Spi) (rx : Byte) (h : rx ≠ cmdTxpoll) :
    rxTxStep s rx =
      ((respond rx (receive rx s).1).1,
        { resp := (respond rx (receive rx s).1).2, frame := (receive rx s).2 }) := by
  unfold rxTxStep
  rw [if_neg h]

def Sending (frame : TxFrame) (k : Byte) (s : Spi) : Prop :=
  s.cmd = cmdTxpoll ∧ s.txFrame = frame ∧ s.txIdx = k

theorem openFrame_sending (rx : Byte) (frame : TxFrame) (k : Byte) (s : Spi)
    (h : Sending frame k s) : Sending frame k (openFrame rx s) := by
  unfold openFrame
  by_cases hopen : rx = cmdStatus ∧ s.rxActive = false
  · -- a status byte takes the command over, unless a poll is being answered
    rw [if_pos hopen]
    refine ⟨?_, h.2⟩
    simp only [h.1, ne_eq, not_true_eq_false, if_false]
  · rw [if_neg hopen]
    exact h

theorem collect_sending (rx : Byte) (frame : TxFrame) (k : Byte) (s : Spi)
    (h : Sending frame k s) : Sending frame k (collect rx s).1 := by
  have hstore : Sending frame k (store rx s) := by
    unfold store
    split
    · exact h
    · exact h
  unfold collect
  dsimp only
  split
  · exact hstore
  · exact hstore

theorem receive_sending (rx : Byte) (frame : TxFrame) (k : Byte) (s : Spi)
    (h : Sending frame k s) : Sending frame k (receive rx s).1 := by
  have hopen := openFrame_sending rx frame k s h
  unfold receive
  dsimp only
  split
  · exact collect_sending rx frame k _ hopen
  · exact hopen

theorem respond_sending (rx : Byte) (frame : TxFrame) (k : Byte) (s : Spi)
    (h : Sending frame k s) :
    Sending frame (k + 1) (respond rx s).1 ∧
      (respond rx s).2 = frame.toList.getD k.toNat 0 := by
  unfold respond
  rw [if_pos h.1]
  refine ⟨⟨h.1, h.2.1, by rw [h.2.2]⟩, ?_⟩
  simp only [h.2.1, h.2.2]
  -- past the end of the frame the answer is zero
  split <;> rename_i hk
  · simp only [List.getD_eq_getElem?_getD, Vector.getElem?_toList,
      Vector.getElem?_eq_getElem hk, Option.getD_some]
  · simp only [List.getD_eq_getElem?_getD, Vector.getElem?_toList,
      Vector.getElem?_eq_none (Nat.not_lt.mp hk), Option.getD_none]

theorem rxTxStep_sending (rx : Byte) (frame : TxFrame) (k : Byte) (s : Spi)
    (h : Sending frame k s) (hrx : rx ≠ cmdTxpoll) :
    Sending frame (k + 1) (rxTxStep s rx).1 ∧
      (rxTxStep s rx).2.resp = frame.toList.getD k.toNat 0 := by
  rw [rxTxStep_of_ne s rx hrx]
  exact respond_sending rx frame k _ (receive_sending rx frame k s h)

theorem poll_sending (s : Spi) :
    Sending s.txFrame 1 (rxTxStep s cmdTxpoll).1 ∧
      (rxTxStep s cmdTxpoll).2.resp = s.txFrame.toList.getD 0 0 := by
  rw [rxTxStep_poll]
  refine ⟨⟨rfl, rfl, rfl⟩, ?_⟩
  simp only [poll, List.getD_eq_getElem?_getD, Vector.getElem?_toList,
    Vector.getElem?_eq_getElem (show 0 < 39 by omega), Option.getD_some]

/-- The interrupt as a step: a time and a received byte. -/
def isr (s : Spi) (input : BitVec 32 × Byte) : Spi × StepOut :=
  spi0Isr input.1 s input.2

theorem spi0Isr_answer (now : BitVec 32) (s : Spi) (rx : Byte) :
    (spi0Isr now s rx).2 = (rxTxStep s rx).2 := by
  unfold spi0Isr
  dsimp only
  split
  · rfl
  · rfl

theorem latch_sending (now : BitVec 32) (bytes : List Byte) (frame : TxFrame) (k : Byte)
    (s : Spi) (h : Sending frame k s) : Sending frame k (latch now bytes s) := by
  unfold latch
  split
  · exact h
  · exact h

theorem spi0Isr_sending (now : BitVec 32) (frame : TxFrame) (k : Byte) (s : Spi) (rx : Byte)
    (h : Sending frame k (rxTxStep s rx).1) : Sending frame k (spi0Isr now s rx).1 := by
  unfold spi0Isr
  dsimp only
  split
  · exact h
  · exact latch_sending now _ frame k _ h

theorem isr_sending (input : BitVec 32 × Byte) (frame : TxFrame) (k : Byte) (s : Spi)
    (h : Sending frame k s) (hrx : input.2 ≠ cmdTxpoll) :
    Sending frame (k + 1) (isr s input).1 ∧
      (isr s input).2.resp = frame.toList.getD k.toNat 0 := by
  have hstep := rxTxStep_sending input.2 frame k s h hrx
  refine ⟨spi0Isr_sending input.1 frame _ s input.2 hstep.1, ?_⟩
  unfold isr
  rw [spi0Isr_answer]
  exact hstep.2

theorem isr_poll_sending (now : BitVec 32) (s : Spi) :
    Sending s.txFrame 1 (isr s (now, cmdTxpoll)).1 ∧
      (isr s (now, cmdTxpoll)).2.resp = s.txFrame.toList.getD 0 0 := by
  have hstep := poll_sending s
  refine ⟨spi0Isr_sending now _ _ s cmdTxpoll hstep.1, ?_⟩
  unfold isr
  rw [spi0Isr_answer]
  exact hstep.2

theorem rxTxStep_txFrame (s : Spi) (rx : Byte) : (rxTxStep s rx).1.txFrame = s.txFrame := by
  by_cases hpoll : rx = cmdTxpoll
  · rw [hpoll, rxTxStep_poll]
    rfl
  · rw [rxTxStep_of_ne s rx hpoll]
    have hopen : (openFrame rx s).txFrame = s.txFrame := by
      unfold openFrame
      split <;> rfl
    have hcollect : ∀ t : Spi, (collect rx t).1.txFrame = t.txFrame := by
      intro t
      unfold collect store
      dsimp only
      split <;> split <;> rfl
    have hreceive : (receive rx s).1.txFrame = s.txFrame := by
      unfold receive
      dsimp only
      split
      · exact (hcollect _).trans hopen
      · exact hopen
    have hrespond : ∀ t : Spi, (respond rx t).1.txFrame = t.txFrame := by
      intro t
      unfold respond
      split
      · rfl
      · split <;> rfl
    exact (hrespond _).trans hreceive

theorem isr_txFrame (s : Spi) (input : BitVec 32 × Byte) : (isr s input).1.txFrame = s.txFrame := by
  have hstep := rxTxStep_txFrame s input.2
  unfold isr spi0Isr
  dsimp only
  split
  · exact hstep
  · unfold latch
    split <;> exact hstep

end Spi

/-!
### The Transmit Stream

What the module reads when it polls once and then goes on clocking. The first
thirty-nine answers are the frame, whatever status bytes the module sends
meanwhile, and after them the slave should answer zeros until the next poll.

The place in the frame is `txIdx`, and it moves on past the end of the frame as
well. It is eight bits wide, so the byte number 256 after the poll is answered
from the start of the frame again: `trace_rest` has the place modulo 256.
A transfer that long reads zeros past the frame only if the bytes that go out a
second time are zeros themselves, and `streams_once_iff` says so exactly. A
report starts with a nonzero byte, so for a report the bound is the length.
-/

namespace Spi

open StepRun

/-- What the module reads while it clocks in these bytes. -/
def answers (s : Spi) (bytes : List Byte) : List Byte :=
  (trace rxTxStep s bytes).map (·.resp)

/-- The byte in place `k` of the frame, and zero past its end. -/
def frameByte (frame : TxFrame) (k : Nat) : Byte :=
  frame.toList.getD k 0

theorem frameByte_of_le (frame : TxFrame) {k : Nat} (h : 39 ≤ k) : frameByte frame k = 0 := by
  unfold frameByte
  rw [List.getD_eq_getElem?_getD, List.getElem?_eq_none (by simpa using h), Option.getD_none]

/-- A poll and the bytes after it read the frame once and then zeros. -/
def StreamsOnce (s : Spi) (rest : List Byte) : Prop :=
  answers s (cmdTxpoll :: rest) = (List.range (rest.length + 1)).map (frameByte s.txFrame)

instance (s : Spi) (rest : List Byte) : Decidable (StreamsOnce s rest) :=
  inferInstanceAs (Decidable (_ = _))

theorem trace_rest (frame : TxFrame) (rest : List Byte) (hrest : ∀ rx ∈ rest, rx ≠ cmdTxpoll) :
    ∀ (k : Nat) (s : Spi), Sending frame (BitVec.ofNat 8 k) s →
      answers s rest =
        (List.range rest.length).map (fun j => frameByte frame ((k + j) % 256)) := by
  unfold answers
  induction rest with
  | nil =>
    intro k s _
    rfl
  | cons rx rest ih =>
    intro k s h
    have hstep := rxTxStep_sending rx frame _ s h (hrest rx List.mem_cons_self)
    have hnext : BitVec.ofNat 8 k + 1 = BitVec.ofNat 8 (k + 1) := by
      rw [BitVec.ofNat_add]
      rfl
    rw [hnext] at hstep
    have hothers := ih (fun b hb => hrest b (List.mem_cons_of_mem rx hb)) (k + 1) _ hstep.1
    simp only [trace, List.map_cons, hothers, hstep.2, List.length_cons,
      List.range_succ_eq_map, List.map_map, BitVec.toNat_ofNat, Nat.add_zero]
    refine congrArg₂ List.cons rfl (List.map_congr_left (fun j _ => ?_))
    simp only [Function.comp, Nat.succ_eq_add_one, Nat.add_assoc, Nat.add_comm 1 j]

theorem answers_poll (s : Spi) (rest : List Byte) (hrest : ∀ rx ∈ rest, rx ≠ cmdTxpoll) :
    answers s (cmdTxpoll :: rest) =
      (List.range (rest.length + 1)).map (fun k => frameByte s.txFrame (k % 256)) := by
  have hpoll := poll_sending s
  have hothers := trace_rest s.txFrame rest hrest 1 _ hpoll.1
  unfold answers at hothers ⊢
  simp only [trace, List.map_cons, hothers, hpoll.2, List.range_succ_eq_map, List.map_map]
  refine congrArg₂ List.cons rfl (List.map_congr_left (fun j _ => ?_))
  simp only [Function.comp, Nat.succ_eq_add_one, Nat.add_comm 1 j]

theorem streamsOnce_iff_places (s : Spi) (rest : List Byte)
    (hrest : ∀ rx ∈ rest, rx ≠ cmdTxpoll) :
    StreamsOnce s rest ↔
      ∀ k ≤ rest.length, frameByte s.txFrame (k % 256) = frameByte s.txFrame k := by
  unfold StreamsOnce
  rw [answers_poll s rest hrest, List.map_inj_left]
  simp only [List.mem_range, Nat.lt_succ_iff]

/-- From any state, a poll and any bytes that are not polls read the frame once
    and then zeros exactly when the bytes of the frame whose place comes round
    again, the one in place `i` after `256 + i` bytes, are zero. -/
theorem streams_once_iff (s : Spi) (rest : List Byte) (hrest : ∀ rx ∈ rest, rx ≠ cmdTxpoll) :
    StreamsOnce s rest ↔ ∀ i < 39, 256 + i ≤ rest.length → frameByte s.txFrame i = 0 := by
  rw [streamsOnce_iff_places s rest hrest]
  constructor
  · intro h i hi hlen
    have hplace := h (256 + i) hlen
    rwa [frameByte_of_le s.txFrame (show 39 ≤ 256 + i by omega), Nat.add_mod_left,
      Nat.mod_eq_of_lt (show i < 256 by omega)] at hplace
  · intro h k hk
    rcases Nat.lt_or_ge k 256 with hshort | hlong
    · rw [Nat.mod_eq_of_lt hshort]
    · rw [frameByte_of_le s.txFrame (show 39 ≤ k by omega)]
      -- past the first round only the places inside the frame could show
      rcases Nat.lt_or_ge (k % 256) 39 with hin | hout
      · exact h (k % 256) hin (by omega)
      · exact frameByte_of_le s.txFrame hout

/-- The stream of a transfer that ends inside the frame. -/
theorem streams_once_short :
    (∀ rx ∈ List.replicate 50 cmdStatus, rx ≠ cmdTxpoll) ∧
      (StreamsOnce reset (List.replicate 50 cmdStatus) ↔
        ∀ i < 39, 256 + i ≤ (List.replicate 50 cmdStatus).length →
          frameByte reset.txFrame i = 0) := by
  have hrest : ∀ rx ∈ List.replicate 50 cmdStatus, rx ≠ cmdTxpoll := by
    intro rx hrx
    rw [List.eq_of_mem_replicate hrx]
    decide
  exact ⟨hrest, streams_once_iff reset _ hrest⟩

theorem first_of_frame : 0 < 39 := by decide

def reporting : Spi :=
  loadTxBuffer ((Vector.replicate 39 0).set 0 0xA1 first_of_frame) reset

/-- A report is read a second time by a transfer of 257 bytes. -/
theorem streams_once_broken :
    ¬ ∀ (s : Spi) (rest : List Byte), (∀ rx ∈ rest, rx ≠ cmdTxpoll) → StreamsOnce s rest := by
  intro h
  have hrest : ∀ rx ∈ List.replicate 256 (0 : Byte), rx ≠ cmdTxpoll := by
    intro rx hrx
    rw [List.eq_of_mem_replicate hrx]
    decide
  have hplaces := (streamsOnce_iff_places reporting _ hrest).mp (h reporting _ hrest)
  exact absurd (hplaces 256 List.length_replicate.ge) (by decide)

end Spi

end K530
