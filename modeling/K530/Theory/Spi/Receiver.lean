import K530.Theory.Spi.Shifter
import Mathlib.Algebra.BigOperators.Group.List.Basic

/-!
# The Receive Half

What the status parser is for, and how far the code gets with it.

Abstractly the parser holds at most one open status frame, with no bound on its
length: `listen` opens one at `0xA7`, drops it at a poll, and closes it at the
first byte equal to the sum of everything before it. `Follows` ties the code's
four variables to that. The first sixty-four bytes and the running sum of *all*
bytes part company exactly when the frame outgrows the buffer, which is where
soundness fails.

`rxTxStep_follows` is the simulation, and three results are read off it:

* a poll puts every state in the same abstract state;
* a frame that fits the buffer, does not close early and holds no poll byte is
  delivered at its last byte, in full;
* a delivered frame is well formed exactly when the byte that closed it still
  fitted the buffer.

A body byte `0xA2` is a poll whatever frame it stands in. That is how the
machine recovers from lost bytes, and such a frame is never delivered.

## Main definitions

* `listen`: The parser without its buffer.

## Theorems

* `trace_after_poll_eq`: Nothing before a poll shows after it.
* `status_frame_latched`: A status frame without a poll byte is delivered and
  latched.
* `delivered_wellSummed_iff`: Every delivered frame is well formed exactly when
  none closes after outgrowing the buffer.
-/

namespace K530

namespace Spi

open StepRun

def listen (opened : Option (List Byte)) (rx : Byte) :
    Option (List Byte) × Option (List Byte) :=
  if rx = cmdTxpoll then (none, none)
  else
    match opened with
    | none => if rx = cmdStatus then (some [rx], none) else (none, none)
    | some body =>
      if rx = body.sum then (none, some (body ++ [rx])) else (some (body ++ [rx]), none)

def Follows (s : Spi) : Option (List Byte) → Prop
  | none => s.rxActive = false
  | some body =>
    s.rxActive = true ∧ body ≠ [] ∧ s.rxLen = min body.length rxFrameLen ∧
      s.stored = body.take rxFrameLen ∧ s.rxSum.setWidth 8 = body.sum

variable (rx : Byte) (s : Spi)

theorem stored_store (h : s.rxLen < rxFrameLen) :
    (store rx s).stored = s.stored ++ [rx] ∧ (store rx s).rxLen = s.rxLen + 1 := by
  unfold store
  rw [dif_pos h]
  refine ⟨?_, rfl⟩
  unfold stored
  dsimp only
  rw [Vector.toList_set, List.take_add_one, List.take_set_of_le (Nat.le_refl _)]
  congr 1
  rw [List.getElem?_set_self (by rw [Vector.length_toList]; exact h)]
  rfl

theorem store_full (h : ¬ s.rxLen < rxFrameLen) : store rx s = s := by
  unfold store
  rw [dif_neg h]

theorem store_rxSum : (store rx s).rxSum = s.rxSum := by
  unfold store
  split
  · rfl
  · rfl

theorem store_rxActive : (store rx s).rxActive = s.rxActive := by
  unfold store
  split
  · rfl
  · rfl

variable (body : List Byte)

theorem store_follows (h : Follows s (some body)) :
    (store rx s).rxLen = min (body ++ [rx]).length rxFrameLen ∧
      (store rx s).stored = (body ++ [rx]).take rxFrameLen := by
  rcases h with ⟨-, -, hlen, hbuf, -⟩
  by_cases hfull : body.length < rxFrameLen
  · have hroom : s.rxLen < rxFrameLen := by
      rw [hlen]
      exact lt_of_le_of_lt (Nat.min_le_left _ _) hfull
    have hst := stored_store rx s hroom
    rw [hst.1, hst.2, hlen, hbuf, List.length_append, List.length_singleton,
      List.take_of_length_le (Nat.le_of_lt hfull),
      List.take_of_length_le (by rw [List.length_append]; exact hfull)]
    exact ⟨by omega, rfl⟩
  · -- the buffer is full: the frame grows and the buffer does not
    have hroom : ¬ s.rxLen < rxFrameLen := by
      rw [hlen]
      omega
    rw [store_full rx s hroom, hlen, hbuf, List.length_append, List.length_singleton,
      List.take_append_of_le_length (Nat.not_lt.mp hfull)]
    exact ⟨by omega, rfl⟩

theorem sum_concat (rx : Byte) : (body ++ [rx]).sum = body.sum + rx := by
  rw [List.sum_append, List.sum_singleton]

theorem collect_follows (h : Follows s (some body)) :
    if rx = body.sum then
      Follows (collect rx s).1 none ∧
        (collect rx s).2 = some ((body ++ [rx]).take rxFrameLen)
    else Follows (collect rx s).1 (some (body ++ [rx])) ∧ (collect rx s).2 = none := by
  have hst := store_follows rx s body h
  rcases h with ⟨hactive, hne, -, -, hsum⟩
  have htwo : 2 ≤ (store rx s).rxLen := by
    have hpos := List.length_pos_iff.mpr hne
    rw [hst.1, List.length_append, List.length_singleton]
    exact le_min (by omega) (by decide)
  unfold collect
  dsimp only
  rw [store_rxSum, hsum]
  by_cases hclose : rx = body.sum
  · rw [if_pos hclose, if_pos ⟨htwo, hclose⟩]
    exact ⟨rfl, by rw [hst.2]⟩
  · rw [if_neg hclose, if_neg (fun hc => hclose hc.2)]
    refine ⟨⟨?_, ?_, hst.1, hst.2, ?_⟩, rfl⟩
    · rw [← hactive]
      exact store_rxActive rx s
    · exact List.append_ne_nil_of_right_ne_nil body (List.cons_ne_nil rx [])
    · -- the running sum has sixteen bits, and its low byte is the sum
      rw [sum_concat, ← hsum, BitVec.setWidth_add _ _ (by omega)]
      congr 1
      exact BitVec.setWidth_setWidth_of_le rx (by omega)

theorem openFrame_of_not (h : ¬ (rx = cmdStatus ∧ s.rxActive = false)) : openFrame rx s = s := by
  unfold openFrame
  rw [if_neg h]

theorem openFrame_status (h : s.rxActive = false) :
    (openFrame cmdStatus s).rxActive ∧ (openFrame cmdStatus s).rxLen = 0 ∧
      (openFrame cmdStatus s).rxSum = 0 := by
  unfold openFrame
  rw [if_pos ⟨rfl, h⟩]
  exact ⟨rfl, rfl, rfl⟩

theorem receive_idle (h : Follows s none) (hrx : rx ≠ cmdStatus) : receive rx s = (s, none) := by
  have hidle : s.rxActive = false := h
  unfold receive
  rw [openFrame_of_not rx s (fun hc => hrx hc.1),
    if_neg (by rw [hidle]; exact Bool.false_ne_true)]

theorem receive_inside (h : Follows s (some body)) : receive rx s = collect rx s := by
  have hactive : s.rxActive := h.1
  unfold receive
  rw [openFrame_of_not rx s (fun hc => by rw [hactive] at hc; exact Bool.noConfusion hc.2),
    if_pos hactive]

theorem receive_open (h : Follows s none) :
    Follows (receive cmdStatus s).1 (some [cmdStatus]) ∧ (receive cmdStatus s).2 = none := by
  rcases openFrame_status s h with ⟨hactive, hlen, hsum⟩
  have hst := stored_store cmdStatus (openFrame cmdStatus s) (by rw [hlen]; decide)
  have hnil : (openFrame cmdStatus s).stored = [] := by
    unfold stored
    rw [hlen, List.take_zero]
  rw [hlen] at hst
  unfold receive
  rw [if_pos hactive]
  unfold collect
  -- one byte is stored, and the terminator is looked for from the second on
  rw [if_neg (fun hc => absurd hc.1 (by rw [hst.2]; decide))]
  refine ⟨⟨?_, List.cons_ne_nil _ _, hst.2, ?_, ?_⟩, rfl⟩
  · rw [← hactive]
    exact store_rxActive cmdStatus _
  · rw [hnil] at hst
    exact hst.1
  · dsimp only
    rw [store_rxSum, hsum]
    rfl

variable (opened : Option (List Byte))

theorem respond_follows : Follows (respond rx s).1 opened ↔ Follows s opened := by
  unfold respond
  split
  · cases opened <;> rfl
  · split
    · rfl
    · rfl

theorem rxTxStep_follows (rx : Byte) (h : Follows s opened) :
    (rxTxStep s rx).2.frame = (listen opened rx).2.map (List.take rxFrameLen) ∧
      Follows (rxTxStep s rx).1 (listen opened rx).1 := by
  by_cases hpoll : rx = cmdTxpoll
  · rw [hpoll, rxTxStep_poll]
    unfold listen
    rw [if_pos rfl]
    exact ⟨rfl, rfl⟩
  · rw [rxTxStep_of_ne s rx hpoll]
    unfold listen
    rw [if_neg hpoll]
    dsimp only
    rw [respond_follows]
    cases opened with
    | none =>
      by_cases hopen : rx = cmdStatus
      · rw [hopen]
        have hstart := receive_open s h
        exact ⟨hstart.2, hstart.1⟩
      · rw [receive_idle rx s h hopen]
        simp only [if_neg hopen]
        exact ⟨rfl, h⟩
    | some body =>
      have hstep := collect_follows rx s body h
      rw [receive_inside rx s body h]
      by_cases hclose : rx = body.sum
      · rw [if_pos hclose] at hstep
        simp only [if_pos hclose]
        exact ⟨hstep.2, hstep.1⟩
      · rw [if_neg hclose] at hstep
        simp only [if_neg hclose]
        exact ⟨hstep.2, hstep.1⟩

/-! ### Nothing before a poll shows after it -/

def Synced (s t : Spi) : Prop :=
  ∃ frame k opened, Sending frame k s ∧ Sending frame k t ∧ Follows s opened ∧ Follows t opened

theorem synced_step (s t : Spi) (rx : Byte) (h : Synced s t) :
    (rxTxStep s rx).2 = (rxTxStep t rx).2 ∧ Synced (rxTxStep s rx).1 (rxTxStep t rx).1 := by
  rcases h with ⟨frame, k, opened, hs, ht, hfs, hft⟩
  have hrs := rxTxStep_follows s opened rx hfs
  have hrt := rxTxStep_follows t opened rx hft
  have hframe : (rxTxStep s rx).2.frame = (rxTxStep t rx).2.frame := hrs.1.trans hrt.1.symm
  by_cases hpoll : rx = cmdTxpoll
  · -- another poll: both start over from the frame they hold
    subst hpoll
    have hps := poll_sending s
    have hpt := poll_sending t
    rw [hs.2.1] at hps
    rw [ht.2.1] at hpt
    exact ⟨StepOut.ext (hps.2.trans hpt.2.symm) hframe,
      frame, 1, _, hps.1, hpt.1, hrs.2, hrt.2⟩
  · have hss := rxTxStep_sending rx frame k s hs hpoll
    have hst := rxTxStep_sending rx frame k t ht hpoll
    exact ⟨StepOut.ext (hss.2.trans hst.2.symm) hframe,
      frame, k + 1, _, hss.1, hst.1, hrs.2, hrt.2⟩

theorem poll_synced (s t : Spi) (h : s.txFrame = t.txFrame) :
    (rxTxStep s cmdTxpoll).2 = (rxTxStep t cmdTxpoll).2 ∧
      Synced (rxTxStep s cmdTxpoll).1 (rxTxStep t cmdTxpoll).1 := by
  -- what a poll leaves as it was is set again before the parser reads it
  simp only [rxTxStep_poll, poll, h]
  exact ⟨trivial, t.txFrame, 1, none, ⟨rfl, rfl, rfl⟩, ⟨rfl, rfl, rfl⟩, rfl, rfl⟩

/-- From a poll on, two machines that hold the same frame answer alike: the
    same bytes out, and the same frames delivered at the same bytes. -/
theorem trace_after_poll_eq (s t : Spi) (h : s.txFrame = t.txFrame) (rest : List Byte) :
    trace rxTxStep s (cmdTxpoll :: rest) = trace rxTxStep t (cmdTxpoll :: rest) := by
  have hpoll := poll_synced s t h
  simp only [trace]
  rw [hpoll.1, trace_eq_of_related rxTxStep Synced synced_step rest _ _ hpoll.2]

/-- A machine left in the middle of a status frame, and one fresh from reset. -/
theorem trace_after_poll_eq_reset :
    trace rxTxStep (run (next rxTxStep) reset [0xA7, 0x11, 0x22]) [0xA2, 0xA7, 0x01, 0xA8] =
      trace rxTxStep reset [0xA2, 0xA7, 0x01, 0xA8] :=
  trace_after_poll_eq (run (next rxTxStep) reset [0xA7, 0x11, 0x22]) reset (by decide)
    [0xA7, 0x01, 0xA8]

/-! ### A status frame is delivered and latched -/

/-- No byte from the second on equals the sum of the bytes before it. -/
def Unended (body : List Byte) : Prop :=
  ∀ i < body.length, 1 ≤ i → body[i]? ≠ some (body.take i).sum

instance (body : List Byte) : Decidable (Unended body) :=
  inferInstanceAs (Decidable (∀ i < body.length, 1 ≤ i → body[i]? ≠ some (body.take i).sum))

theorem unended_singleton : Unended [rx] := by
  intro i hi hpos
  rw [List.length_singleton] at hi
  omega

theorem ne_sum_of_unended (pre rest : List Byte) (rx : Byte) (hne : pre ≠ [])
    (h : Unended (pre ++ rx :: rest)) : rx ≠ pre.sum := by
  intro heq
  have hpos := List.length_pos_iff.mpr hne
  refine h pre.length ?_ hpos ?_
  · rw [List.length_append, List.length_cons]
    omega
  · rw [List.getElem?_append_right (Nat.le_refl _), Nat.sub_self, List.getElem?_cons_zero,
      List.take_left, heq]

theorem unended_concat (rx : Byte) (h : Unended body) (hrx : rx ≠ body.sum) :
    Unended (body ++ [rx]) := by
  intro i hi hpos
  rw [List.length_append, List.length_singleton] at hi
  by_cases hlast : i = body.length
  · rw [hlast, List.getElem?_append_right (Nat.le_refl _), Nat.sub_self, List.getElem?_cons_zero,
      List.take_left]
    exact fun hc => hrx (Option.some.inj hc)
  · have hlt : i < body.length := by omega
    rw [List.getElem?_append_left hlt, List.take_append_of_le_length (Nat.le_of_lt hlt)]
    exact h i hlt hpos

/-- A status frame as the module should send it: an opening byte, a body, and
    a terminator that is the sum of both, which no byte before it happens to
    be. -/
structure StatusFrame where
  /-- everything up to the terminator -/
  body : List Byte
  opens : body.head? = some cmdStatus
  long : 5 ≤ body.length
  fits : body.length < rxFrameLen
  unended : Unended body

/-- The bytes of a status frame, its terminator included. -/
def StatusFrame.bytes (f : StatusFrame) : List Byte :=
  f.body ++ [f.body.sum]

theorem trace_listen_rest (rest : List Byte) :
    ∀ pre, pre ≠ [] → Unended (pre ++ rest) → cmdTxpoll ∉ rest →
      trace listen (some pre) rest = List.replicate rest.length none ∧
        run (next listen) (some pre) rest = some (pre ++ rest) := by
  induction rest with
  | nil =>
    intro pre _ _ _
    rw [List.append_nil]
    exact ⟨rfl, rfl⟩
  | cons rx rest ih =>
    intro pre hne hun hpoll
    rw [List.mem_cons, not_or] at hpoll
    have hstep : listen (some pre) rx = (some (pre ++ [rx]), none) := by
      unfold listen
      rw [if_neg (Ne.symm hpoll.1)]
      simp only [if_neg (ne_sum_of_unended pre rest rx hne hun)]
    have hrest := ih (pre ++ [rx])
      (List.append_ne_nil_of_right_ne_nil pre (List.cons_ne_nil rx []))
      (by rw [List.append_assoc]; exact hun) hpoll.2
    rw [List.append_assoc, List.singleton_append] at hrest
    simp only [trace, run_cons, next, hstep, hrest.1, List.length_cons, List.replicate_succ,
      true_and]
    exact hrest.2

theorem trace_listen_frame (f : StatusFrame) (hpoll : cmdTxpoll ∉ f.bytes) :
    trace listen none f.bytes = List.replicate f.body.length none ++ [some f.bytes] := by
  have hopens := f.opens
  have hun := f.unended
  unfold StatusFrame.bytes at hpoll ⊢
  cases hbody : f.body with
  | nil =>
    rw [hbody] at hopens
    exact absurd hopens (by decide)
  | cons first rest =>
    rw [hbody, List.head?_cons, Option.some.injEq] at hopens
    rw [hbody] at hun hpoll
    rw [List.cons_append, List.mem_cons, List.mem_append, List.mem_singleton, not_or,
      not_or] at hpoll
    have hrest := trace_listen_rest rest [first] (List.cons_ne_nil _ _) hun hpoll.2.1
    have hstart : listen none first = (some [first], none) := by
      unfold listen
      rw [if_neg (Ne.symm hpoll.1)]
      simp only [if_pos hopens]
    have hlast : listen (some (first :: rest)) (first :: rest).sum =
        (none, some (first :: rest ++ [(first :: rest).sum])) := by
      unfold listen
      rw [if_neg (Ne.symm hpoll.2.2)]
      simp only [if_true]
    rw [List.cons_append]
    simp only [trace, hstart]
    rw [trace_append, hrest.1, hrest.2]
    simp only [List.cons_append, List.nil_append, trace, List.length_cons, List.replicate_succ]
    rw [hlast, List.cons_append]

theorem spi0Isr_follows (now : BitVec 32) (s : Spi) (rx : Byte) (opened : Option (List Byte)) :
    Follows (spi0Isr now s rx).1 opened ↔ Follows (rxTxStep s rx).1 opened := by
  unfold spi0Isr
  dsimp only
  split
  · rfl
  · unfold latch
    split
    · cases opened <;> rfl
    · rfl

theorem isr_follows (input : BitVec 32 × Byte) (h : Follows s opened) :
    (isr s input).2.frame = (listen opened input.2).2.map (List.take rxFrameLen) ∧
      Follows (isr s input).1 (listen opened input.2).1 := by
  unfold isr
  rw [spi0Isr_answer, spi0Isr_follows]
  exact rxTxStep_follows s opened input.2 h

theorem trace_isr_frames (inputs : List (BitVec 32 × Byte)) (h : Follows s opened) :
    (trace isr s inputs).map StepOut.frame =
      (trace listen opened (inputs.map Prod.snd)).map (Option.map (List.take rxFrameLen)) := by
  rw [← trace_comap listen Prod.snd]
  exact trace_related isr (fun o input => listen o input.2) StepOut.frame
    (Option.map (List.take rxFrameLen)) Follows (fun s o input h => isr_follows s o input h)
    inputs s opened h

theorem isr_latches (input : BitVec 32 × Byte) (frame : List Byte)
    (h : (isr s input).2.frame = some frame) (hlong : 6 ≤ frame.length)
    (hopens : frame.head? = some cmdStatus) :
    frame[3]? = some (isr s input).1.a7HidLed ∧ frame[4]? = some (isr s input).1.a7Link ∧
      frame[5]? = some (isr s input).1.a7Batt ∧ (isr s input).1.a7Valid := by
  have hcode : frame.getD 0 0 = cmdStatus := by
    rw [List.getD_eq_getElem?_getD, ← List.head?_eq_getElem?, hopens, Option.getD_some]
  unfold isr at h ⊢
  rw [spi0Isr_answer] at h
  unfold spi0Isr
  simp only [h]
  unfold latch
  rw [if_pos ⟨hlong, Or.inl hcode⟩]
  simp only [List.getD_eq_getElem?_getD]
  rw [List.getElem?_eq_getElem (by omega), List.getElem?_eq_getElem (by omega),
    List.getElem?_eq_getElem (by omega)]
  exact ⟨rfl, rfl, rfl, trivial⟩

theorem StatusFrame.head_bytes (f : StatusFrame) : f.bytes.head? = some cmdStatus := by
  have hne : f.body ≠ [] := by
    intro h
    have hlong := f.long
    rw [h] at hlong
    exact absurd hlong (by decide)
  unfold bytes
  rw [List.head?_append_of_ne_nil _ hne]
  exact f.opens

theorem StatusFrame.length_bytes (f : StatusFrame) : f.bytes.length = f.body.length + 1 := by
  unfold bytes
  rw [List.length_append, List.length_singleton]

theorem trace_isr_frame (f : StatusFrame) (inputs : List (BitVec 32 × Byte)) (h : Follows s none)
    (hin : inputs.map Prod.snd = f.bytes) (hpoll : cmdTxpoll ∉ f.bytes) :
    (trace isr s inputs).map StepOut.frame =
      List.replicate f.body.length none ++ [some f.bytes] := by
  have hfits := f.fits
  rw [trace_isr_frames s none inputs h, hin, trace_listen_frame f hpoll, List.map_append,
    List.map_replicate, List.map_singleton, Option.map_none, Option.map_some,
    List.take_of_length_le (by rw [f.length_bytes]; exact hfits)]

/-- After a poll, a status frame with no poll byte in it is delivered at its
    last byte and at no other, in full, and the interrupt latches its bytes 3,
    4 and 5. -/
theorem status_frame_latched (s : Spi) (f : StatusFrame) (inputs : List (BitVec 32 × Byte))
    (hin : inputs.map Prod.snd = cmdTxpoll :: f.bytes) (hpoll : cmdTxpoll ∉ f.bytes) :
    (trace isr s inputs).map StepOut.frame =
        List.replicate f.bytes.length none ++ [some f.bytes] ∧
      f.bytes[3]? = some (run (next isr) s inputs).a7HidLed ∧
      f.bytes[4]? = some (run (next isr) s inputs).a7Link ∧
      f.bytes[5]? = some (run (next isr) s inputs).a7Batt ∧
      (run (next isr) s inputs).a7Valid = true := by
  cases inputs with
  | nil => exact absurd hin (List.cons_ne_nil _ _).symm
  | cons polled rest =>
    rw [List.map_cons, List.cons.injEq] at hin
    -- the poll leaves no frame open, whatever was open before it
    have hidle : Follows (isr s polled).1 none ∧ (isr s polled).2.frame = none := by
      unfold isr
      rw [hin.1, spi0Isr_answer, spi0Isr_follows, rxTxStep_poll]
      exact ⟨rfl, rfl⟩
    have hframes := trace_isr_frame (isr s polled).1 f rest hidle.1 hin.2 hpoll
    refine ⟨?_, ?_⟩
    · simp only [trace, List.map_cons, hidle.2, hframes, f.length_bytes, List.replicate_succ,
        List.cons_append]
    · rcases List.eq_nil_or_concat' rest with hnil | ⟨body, last, hrest⟩
      · rw [hnil] at hframes
        exact absurd hframes.symm (List.append_ne_nil_of_right_ne_nil _ (List.cons_ne_nil _ _))
      · -- the last byte of the trace is the one that completes
        rw [hrest, trace_append, List.map_append] at hframes
        have hlast := (List.append_inj' hframes rfl).2
        simp only [trace, List.map_cons, List.map_nil, List.cons.injEq, and_true] at hlast
        rw [hrest, run_cons, run_concat]
        exact isr_latches _ last f.bytes hlast
          (by rw [f.length_bytes]; have := f.long; omega) f.head_bytes

/-- The frame the module sends at power-on, after a poll at any time. -/
def powerOnStatus : StatusFrame :=
  { body := [0xA7, 0x00, 0x00, 0x00, 0x02, 0xFF, 0x00, 0x64],
    opens := by decide, long := by decide, fits := by decide, unended := by decide }

theorem status_frame_latched_power_on :
    (trace isr reset ((0, cmdTxpoll) :: powerOnStatus.bytes.map (fun rx => (7, rx)))).map
        StepOut.frame = List.replicate 9 none ++ [some powerOnStatus.bytes] ∧
      some 0x02 = some (run (next isr) reset
        ((0, cmdTxpoll) :: powerOnStatus.bytes.map (fun rx => (7, rx)))).a7Link :=
  have h := status_frame_latched reset powerOnStatus
    ((0, cmdTxpoll) :: powerOnStatus.bytes.map (fun rx => (7, rx))) (by decide) (by decide)
  ⟨h.1, h.2.2.1⟩

def pollInBody : StatusFrame :=
  { body := [0xA7, 0xA2, 0x00, 0x00, 0x00, 0x00],
    opens := by decide, long := by decide, fits := by decide, unended := by decide }

/-- It is not delivered. -/
theorem poll_in_body_not_delivered :
    ¬ ∀ (s : Spi) (f : StatusFrame) (inputs : List (BitVec 32 × Byte)),
      inputs.map Prod.snd = cmdTxpoll :: f.bytes →
        (trace isr s inputs).map StepOut.frame =
            List.replicate f.bytes.length none ++ [some f.bytes] ∧
          f.bytes[3]? = some (run (next isr) s inputs).a7HidLed ∧
          f.bytes[4]? = some (run (next isr) s inputs).a7Link ∧
          f.bytes[5]? = some (run (next isr) s inputs).a7Batt ∧
          (run (next isr) s inputs).a7Valid = true := by
  intro h
  have hall := (h reset pollInBody ((0, cmdTxpoll) :: pollInBody.bytes.map (fun rx => (0, rx)))
    (by decide)).1
  exact absurd hall (by decide)

/-! ### What is delivered is well formed -/

/-- What a delivered frame should be: opened by a status byte, of two to
    sixty-four bytes, and closed by the sum of the others. -/
def WellSummed (frame : List Byte) : Prop :=
  2 ≤ frame.length ∧ frame.length ≤ rxFrameLen ∧ frame.head? = some cmdStatus ∧
    frame.getLast? = some frame.dropLast.sum

/-- The byte closes no frame that the buffer has no room left for. -/
def ClosesInBuffer (s : Spi) (rx : Byte) : Prop :=
  s.rxActive = true → rx ≠ cmdTxpoll → rx = s.rxSum.setWidth 8 → s.rxLen < rxFrameLen

def Opened (s : Spi) : Prop :=
  Follows s none ∨
    ∃ body, Follows s (some body) ∧ body.head? = some cmdStatus ∧ Unended body

theorem reset_opened : Opened reset := Or.inl rfl

theorem rxTxStep_opened (rx : Byte) (h : Opened s) : Opened (rxTxStep s rx).1 := by
  rcases h with hnone | ⟨body, hbody, hhead, hun⟩
  · have hstep := (rxTxStep_follows s none rx hnone).2
    unfold listen at hstep
    split at hstep
    · exact Or.inl hstep
    · dsimp only at hstep
      split at hstep
      · rename_i hopen
        exact Or.inr ⟨[rx], hstep, by rw [hopen, List.head?_cons], unended_singleton rx⟩
      · exact Or.inl hstep
  · have hstep := (rxTxStep_follows s (some body) rx hbody).2
    unfold listen at hstep
    split at hstep
    · exact Or.inl hstep
    · dsimp only at hstep
      split at hstep
      · exact Or.inl hstep
      · rename_i hmore
        refine Or.inr ⟨body ++ [rx], hstep, ?_, unended_concat body rx hun hmore⟩
        rw [List.head?_append_of_ne_nil _ hbody.2.1]
        exact hhead

theorem wellSummed_of_fits (hne : body ≠ []) (hhead : body.head? = some cmdStatus)
    (hfits : body.length < rxFrameLen) : WellSummed ((body ++ [body.sum]).take rxFrameLen) := by
  have hpos := List.length_pos_iff.mpr hne
  rw [List.take_of_length_le (by rw [List.length_append]; exact hfits)]
  refine ⟨?_, ?_, ?_, ?_⟩
  · rw [List.length_append, List.length_singleton]
    omega
  · rw [List.length_append, List.length_singleton]
    exact hfits
  · rw [List.head?_append_of_ne_nil _ hne]
    exact hhead
  · rw [List.getLast?_concat, List.dropLast_concat]

theorem not_wellSummed_of_outgrown (rx : Byte) (hun : Unended body)
    (hfull : rxFrameLen ≤ body.length) : ¬ WellSummed ((body ++ [rx]).take rxFrameLen) := by
  intro h
  have hlast := h.2.2.2
  rw [List.take_append_of_le_length hfull, List.getLast?_eq_getElem?, List.length_take,
    Nat.min_eq_left hfull, List.getElem?_take_of_lt (by decide), List.dropLast_eq_take,
    List.length_take, Nat.min_eq_left hfull, List.take_take] at hlast
  -- its last byte would be the sum of the sixty-three before it
  exact hun 63 (lt_of_lt_of_le (by decide) hfull) (by decide) hlast

theorem wellSummed_iff_closesInBuffer (rx : Byte) (h : Opened s) :
    (∀ frame, (rxTxStep s rx).2.frame = some frame → WellSummed frame) ↔
      ClosesInBuffer s rx := by
  unfold ClosesInBuffer
  rcases h with hnone | ⟨body, hbody, hhead, hun⟩
  · -- outside a frame no byte completes one
    have hidle : s.rxActive = false := hnone
    have hstep := (rxTxStep_follows s none rx hnone).1
    have hquiet : (listen none rx).2 = none := by
      unfold listen
      split
      · rfl
      · dsimp only
        split <;> rfl
    rw [hquiet] at hstep
    rw [hstep, hidle]
    exact ⟨fun _ hc => absurd hc Bool.false_ne_true, fun _ _ hc => nomatch hc⟩
  · have hstep := (rxTxStep_follows s (some body) rx hbody).1
    rcases hbody with ⟨hactive, hne, hlen, -, hsum⟩
    rw [hstep, hactive, hsum, hlen]
    unfold listen
    by_cases hpoll : rx = cmdTxpoll
    · rw [if_pos hpoll]
      exact ⟨fun _ _ hc => absurd hpoll hc, fun _ _ hc => nomatch hc⟩
    · rw [if_neg hpoll]
      dsimp only
      by_cases hclose : rx = body.sum
      · rw [if_pos hclose]
        simp only [Option.map_some, Option.some.injEq, forall_eq']
        by_cases hfits : body.length < rxFrameLen
        · rw [hclose]
          exact ⟨fun _ _ _ _ => lt_of_le_of_lt (Nat.min_le_left _ _) hfits,
            fun _ => wellSummed_of_fits body hne hhead hfits⟩
        · have hfull := Nat.not_lt.mp hfits
          constructor
          · intro hsound
            exact absurd hsound (not_wellSummed_of_outgrown body rx hun hfull)
          · intro hroom
            have := hroom trivial hpoll hclose
            rw [Nat.min_eq_right hfull] at this
            exact absurd this (Nat.lt_irrefl _)
      · rw [if_neg hclose]
        exact ⟨fun _ _ _ hc => absurd hc hclose, fun _ _ hc => nomatch hc⟩

/-- On every stream of bytes from reset, every delivered frame is well formed
    exactly when no byte closes a frame after the buffer has filled up. -/
theorem delivered_wellSummed_iff (bytes : List Byte) :
    (∀ out ∈ trace rxTxStep reset bytes, ∀ frame, out.frame = some frame → WellSummed frame) ↔
      Along (next rxTxStep) ClosesInBuffer reset bytes :=
  forall_trace_iff_along rxTxStep ClosesInBuffer Opened
    (fun out => ∀ frame, out.frame = some frame → WellSummed frame)
    (fun s rx h _ => rxTxStep_opened s rx h) wellSummed_iff_closesInBuffer bytes reset reset_opened

def outgrown : List Byte :=
  0xA7 :: List.replicate 63 0x01 ++ [0xE6]

/-- It is delivered without its terminator. -/
theorem outgrown_delivered_short :
    ¬ ∀ bytes, ∀ out ∈ trace rxTxStep reset bytes, ∀ frame, out.frame = some frame →
      WellSummed frame := by
  intro h
  have hall := h outgrown
    { resp := 0, frame := some (0xA7 :: List.replicate 63 0x01) } (by decide +kernel) _ rfl
  exact absurd hall.2.2.2 (by decide +kernel)

end Spi

end K530
