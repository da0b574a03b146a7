import K530.Lib.Mailbox
import K530.Theory.Link.Handed
import K530.Theory.Spi.Shifter

/-!
# Reports on Their Way

The main loop loads frames, the module polls for them, and between the two is
one transmit buffer. The driver does not look whether the last frame has been
polled, and nothing is kept of one that is loaded over. So a press and a release
within one polling interval are one report for the host, a macro is as many of its
events as there were polls, and a control or a host switch can take a key's place.

`Session` is the main loop, the interrupt and the module over a whole run. The
main loop answers an event with frames and loads them one by one, and bytes may
come in at any point of that. Beside the states of the program it keeps what the
module can have believed: thirty-nine bytes after a poll that begin like a
keyboard frame are a report, torn or not.

The buffer is a mailbox of one place. A load that meets `KeepsKeyboard` does not
replace a keyboard frame that has not been polled in full, nor put a frame of
another kind in the middle of a poll of one. In a run of such loads every report
arrives, `reports_arrive` says.

## Main definitions

* `Session`: The main loop, the interrupt and the module.

## Theorems

* `step_sound`: The buffer is a mailbox.
* `reports_arrive`: In a run of loads that keep the keyboard frame, every report
  arrives.
-/

namespace K530

namespace Link

open StepRun World

/-- The keyboard and the module. -/
structure Session where
  world : World
  /-- the frames of the main loop's last call that are still to be loaded -/
  waiting : List TxFrame
  spi : Spi
  /-- the bytes the module has read since its poll byte, while it is polling -/
  clocked : List Byte
  /-- nothing has been loaded since that poll byte -/
  whole : Bool
  /-- the module has polled the frame in the buffer in full -/
  taken : Bool
  /-- the reports handed to the driver, oldest first -/
  handed : List Report
  /-- the reports the module has read, oldest first -/
  received : List Report
  /-- the polls completed since the last key event was over -/
  polls : Nat

/-- The main loop takes an event, loads a frame, or a byte comes in. -/
inductive Move where
  | main (e : Event)
  | load
  | byte (now : BitVec 32) (rx : Byte)

namespace Session

/-- The reports still to be loaded. -/
def due (s : Session) : List Report := reportsIn s.waiting

/-- The polls after an event. -/
def pollsAfter (s : Session) : Event → Nat
  | .key _ _ => 0
  | .scan _ _ _ _ => s.polls

/-- The main loop takes an event. It does so when the frames of the last one
    have been loaded. -/
def main (e : Event) (s : Session) : Session :=
  match s.waiting with
  | [] =>
    { s with
      world := react s.world e,
      waiting := (react s.world e).loads.drop s.world.loads.length,
      handed := s.handed ++ handedBy s.world e,
      polls := s.pollsAfter e }
  | _ :: _ => s

/-- The next frame is loaded. -/
def load (s : Session) : Session :=
  match s.waiting with
  | [] => s
  | f :: fs =>
    { s with waiting := fs, spi := s.spi.loadTxBuffer f, whole := false, taken := false }

/-- The module has read a byte that is not its first. After thirty-nine the poll
    is complete. -/
def read (resp : Byte) (s : Session) : Session :=
  if s.clocked.length + 1 < 39 then { s with clocked := s.clocked ++ [resp] }
  else
    { s with
      clocked := [], taken := s.taken || s.whole,
      received := s.received ++ (keyboardReport? (s.clocked ++ [resp])).toList,
      polls := if s.due = [] then s.polls + 1 else s.polls }

/-- A byte comes in. -/
def byte (now : BitVec 32) (rx : Byte) (s : Session) : Session :=
  let out := s.spi.spi0Isr now rx
  if rx = Spi.cmdTxpoll then { s with spi := out.1, clocked := [out.2.resp], whole := true }
  else if s.clocked = [] then { s with spi := out.1 }
  else read out.2.resp { s with spi := out.1 }

def step (s : Session) : Move → Session
  | .main e => s.main e
  | .load => s.load
  | .byte now rx => s.byte now rx

/-- Power-on. The first frame is waiting. -/
def start (config : KeymapConfig) (nkro rgbEnabled : Bool) (r : Readings) : Session :=
  { world := World.powerOn config nkro rgbEnabled r,
    waiting := (World.powerOn config nkro rgbEnabled r).loads, spi := Spi.reset, clocked := [],
    whole := false, taken := false, handed := [], received := [], polls := 0 }

/-- Bluetooth is on at every key event. -/
def OnAtMain (s : Session) : Move → Prop
  | .main e => OnAtKeys s.world e
  | .load => True
  | .byte _ _ => True

/-- The next of the waiting frames does not replace a keyboard frame the module
    has not polled in full, and if it is of another kind it does not replace one
    the module is polling. -/
def NextKeeps (s : Session) : List TxFrame → Prop
  | [] => True
  | f :: _ =>
    IsKeyboard s.spi.txFrame.toList → s.taken = true ∧ (s.clocked ≠ [] → IsKeyboard f.toList)

/-- The loads keep the keyboard frame. -/
def KeepsKeyboard (s : Session) : Move → Prop
  | .main _ => True
  | .load => s.NextKeeps s.waiting
  | .byte _ _ => True

/-- The reports on their way: the one in the buffer until it has been polled,
    and those to be loaded. -/
def pending (s : Session) : List Report :=
  if s.taken then s.due else (keyboardReport? s.spi.txFrame.toList).toList ++ s.due

/-- Every report handed to the driver has been received, in order, but for the
    ones still on their way. -/
def Arrived (s : Session) : Prop :=
  ∃ done, s.handed = done ++ s.pending ∧ done.Sublist s.received

/-- When a poll has been completed with no key event since the poll before, the
    last report received is the tracker's. -/
def UpToDate (s : Session) : Prop :=
  2 ≤ s.polls → s.received.getLast?.getD Report.empty = s.world.tracker.report

/-! ### The invariant -/

def buffered (s : Session) : Option Report := keyboardReport? s.spi.txFrame.toList

def Mails (s : Session) (m : Mailbox Report) : Prop :=
  m.slot = s.buffered ∧ m.taken = s.taken ∧ m.got = s.received ∧ s.handed = m.sent ++ s.due

def Reading (s : Session) : Prop :=
  Spi.Sending s.spi.txFrame (BitVec.ofNat 8 s.clocked.length) s.spi ∧
    s.clocked = s.spi.txFrame.toList.take s.clocked.length

structure Sound (s : Session) : Prop where
  ready : s.world.driver.slaveReady = true
  mails : ∃ m : Mailbox Report, s.Mails m
  tracker : s.handed.getLast?.getD Report.empty = s.world.tracker.report
  short : s.clocked.length < 39
  /-- A poll nothing has been loaded into reads the buffer. -/
  whole : s.clocked ≠ [] → s.whole = true → s.Reading
  /-- A poll something has been loaded into reads like a keyboard frame only
      while there is an unpolled one in the buffer. -/
  torn : s.clocked ≠ [] → s.whole = false → IsKeyboard s.clocked →
    IsKeyboard s.spi.txFrame.toList ∧ s.taken = false
  /-- The poll after the one that took the frame is whole. -/
  again : s.taken = true → s.clocked ≠ [] → s.whole = true
  /-- After a first poll the reports have all been loaded, and a keyboard frame
      in the buffer has been there since before the poll under way. -/
  first : 1 ≤ s.polls →
    s.due = [] ∧ (IsKeyboard s.spi.txFrame.toList → s.clocked ≠ [] → s.whole = true)
  /-- After a second it has been taken. -/
  second : 2 ≤ s.polls → IsKeyboard s.spi.txFrame.toList → s.taken = true

variable (s : Session)

theorem buffered_none : s.buffered = none ↔ ¬ IsKeyboard s.spi.txFrame.toList :=
  keyboardReport?_eq_none _

theorem free_iff (m : Mailbox Report) (h : s.Mails m) :
    m.Free ↔ (IsKeyboard s.spi.txFrame.toList → s.taken) := by
  unfold Mailbox.Free
  rw [h.1, h.2.1, buffered_none]
  exact imp_iff_not_or.symm

theorem reportsIn_cons (f : TxFrame) (fs : List TxFrame) :
    reportsIn (f :: fs) = (keyboardReport? f.toList).toList ++ reportsIn fs := by
  unfold reportsIn
  rw [List.filterMap_cons]
  cases keyboardReport? f.toList with
  | none => rfl
  | some report => rfl

theorem isKeyboard_append (bytes more : List Byte) (h : bytes ≠ []) :
    IsKeyboard (bytes ++ more) ↔ IsKeyboard bytes := by
  unfold IsKeyboard
  cases bytes with
  | nil => exact absurd rfl h
  | cons b bytes => exact Iff.rfl

theorem isKeyboard_take (bytes : List Byte) (k : Nat) (h : bytes.take k ≠ []) :
    IsKeyboard (bytes.take k) ↔ IsKeyboard bytes := by
  have hsplit := isKeyboard_append (bytes.take k) (bytes.drop k) h
  rw [List.take_append_drop] at hsplit
  exact hsplit.symm

/-! ### The main loop -/

theorem main_sound (e : Event) (h : s.Sound) (hon : OnAtKeys s.world e) : (s.main e).Sound := by
  unfold main
  cases hwaiting : s.waiting with
  | cons f fs => exact h
  | nil =>
    -- the frames of the last event are all loaded, so the new ones are all due
    have hdue : s.due = [] := by
      unfold due
      rw [hwaiting]
      rfl
    obtain ⟨⟨frames, hloads, hreports⟩, htracker, hready⟩ :=
      react_reaction s.world e hon h.ready
    have hwaiting' : (react s.world e).loads.drop s.world.loads.length = frames := by
      rw [hloads, List.drop_left]
    dsimp only
    rw [hwaiting']
    refine ⟨hready, ?_, ?_, h.short, h.whole, h.torn, h.again, fun hpolls => ?_, fun hpolls => ?_⟩
    · obtain ⟨m, hslot, htaken, hgot, hsent⟩ := h.mails
      refine ⟨m, hslot, htaken, hgot, ?_⟩
      show s.handed ++ handedBy s.world e = m.sent ++ reportsIn frames
      rw [hsent, hdue, List.append_nil, hreports]
    · show (s.handed ++ handedBy s.world e).getLast?.getD Report.empty = _
      rw [← htracker, List.getLast?_append, ← h.tracker]
      cases (handedBy s.world e).getLast? with
      | none => rfl
      | some report => rfl
    · cases e with
      | key now record => exact absurd hpolls (Nat.not_succ_le_zero 0)
      | scan now r link anyKeyDown => exact ⟨hreports, (h.first hpolls).2⟩
    · cases e with
      | key now record => exact absurd hpolls (Nat.not_succ_le_zero 1)
      | scan now r link anyKeyDown => exact h.second hpolls

/-! ### A load -/

theorem load_sound (h : s.Sound) (hkeeps : s.KeepsKeyboard .load) : s.load.Sound := by
  unfold KeepsKeyboard NextKeeps at hkeeps
  unfold load
  cases hwaiting : s.waiting with
  | nil => exact h
  | cons f fs =>
    rw [hwaiting] at hkeeps
    dsimp only at hkeeps ⊢
    have hdue : s.due = (keyboardReport? f.toList).toList ++ reportsIn fs := by
      unfold due
      rw [hwaiting, reportsIn_cons]
    refine ⟨h.ready, ?_, h.tracker, h.short, fun _ hc => Bool.noConfusion hc,
      fun hclocked _ hkey => ?_, fun hc => Bool.noConfusion hc, fun hpolls => ?_,
      fun hpolls => ?_⟩
    · obtain ⟨m, hm⟩ := h.mails
      have hfree : m.Free := (free_iff s m hm).mpr (fun hkey => (hkeeps hkey).1)
      refine ⟨m.put (keyboardReport? f.toList) hfree, rfl, rfl, hm.2.2.1, ?_⟩
      show s.handed = (m.sent ++ (keyboardReport? f.toList).toList) ++ reportsIn fs
      rw [hm.2.2.2, hdue, List.append_assoc]
    · -- the poll began with a keyboard frame, which only another one replaces
      refine ⟨?_, rfl⟩
      cases hwhole : s.whole with
      | true =>
        have hread := (h.whole hclocked hwhole).2
        rw [hread] at hkey hclocked
        have hold := (isKeyboard_take _ _ hclocked).mp hkey
        rw [← hread] at hclocked
        exact (hkeeps hold).2 hclocked
      | false =>
        have htorn := h.torn hclocked hwhole hkey
        exact Bool.noConfusion ((hkeeps htorn.1).1.symm.trans htorn.2)
    · -- nothing was due after the first poll, so the frame carries no report
      have hnone := (h.first hpolls).1
      rw [hdue, List.append_eq_nil_iff] at hnone
      have hsilent := (keyboardReport?_eq_none _).mp (Option.toList_eq_nil_iff.mp hnone.1)
      exact ⟨hnone.2, fun hc => absurd hc hsilent⟩
    · have hnone := (h.first (Nat.le_of_succ_le hpolls)).1
      rw [hdue, List.append_eq_nil_iff] at hnone
      have hsilent := (keyboardReport?_eq_none _).mp (Option.toList_eq_nil_iff.mp hnone.1)
      exact fun hc => absurd hc hsilent

/-! ### A byte -/

theorem take_succ_frame (frame : TxFrame) (k : Nat) (hk : k < 39) :
    frame.toList.take (k + 1) = frame.toList.take k ++ [frame.toList.getD k 0] := by
  rw [List.take_add_one, List.getD_eq_getElem?_getD, Vector.getElem?_toList,
    Vector.getElem?_eq_getElem hk]
  rfl

variable (now : BitVec 32)

theorem poll_reading (s : Session) (rx : Byte) (hrx : rx = Spi.cmdTxpoll) :
    (s.byte now rx).clocked ≠ [] ∧ (s.byte now rx).clocked.length < 39 ∧
      (s.byte now rx).Reading := by
  have hpoll := Spi.isr_poll_sending now s.spi
  have hframe := Spi.isr_txFrame s.spi (now, Spi.cmdTxpoll)
  subst hrx
  unfold byte Reading
  rw [if_pos rfl]
  refine ⟨List.cons_ne_nil _ _, show 1 < 39 by omega, ?_, ?_⟩
  · show Spi.Sending (Spi.isr s.spi (now, Spi.cmdTxpoll)).1.txFrame _ _
    rw [hframe]
    exact hpoll.1
  · show [(Spi.isr s.spi (now, Spi.cmdTxpoll)).2.resp] =
      (Spi.isr s.spi (now, Spi.cmdTxpoll)).1.txFrame.toList.take (0 + 1)
    rw [take_succ_frame _ 0 (by omega), List.take_zero, hframe, hpoll.2]
    rfl

theorem byte_reading (s : Session) (rx : Byte) (hrx : rx ≠ Spi.cmdTxpoll)
    (hshort : s.clocked.length < 39) (h : s.Reading) :
    Spi.Sending s.spi.txFrame (BitVec.ofNat 8 (s.clocked.length + 1)) (s.spi.spi0Isr now rx).1 ∧
      s.clocked ++ [(s.spi.spi0Isr now rx).2.resp] =
        s.spi.txFrame.toList.take (s.clocked.length + 1) := by
  have hstep := Spi.isr_sending (now, rx) s.spi.txFrame _ s.spi h.1 hrx
  refine ⟨?_, ?_⟩
  · rw [BitVec.ofNat_add]
    exact hstep.1
  · have hresp := hstep.2
    rw [BitVec.toNat_ofNat, Nat.mod_eq_of_lt (by omega)] at hresp
    rw [take_succ_frame _ _ hshort, ← h.2, ← hresp]
    rfl

theorem isr_mails (rx : Byte) (s : Session) (m : Mailbox Report) (h : s.Mails m) :
    Mails { s with spi := (s.spi.spi0Isr now rx).1 } m := by
  refine ⟨?_, h.2⟩
  unfold buffered
  rw [h.1, show (s.spi.spi0Isr now rx).1.txFrame = s.spi.txFrame from
    Spi.isr_txFrame s.spi (now, rx)]
  rfl

theorem poll_sound (s : Session) (h : s.Sound) : (s.byte now Spi.cmdTxpoll).Sound := by
  have hread := poll_reading now s Spi.cmdTxpoll rfl
  have hframe : (s.byte now Spi.cmdTxpoll).spi.txFrame = s.spi.txFrame :=
    Spi.isr_txFrame s.spi (now, Spi.cmdTxpoll)
  obtain ⟨m, hm⟩ := h.mails
  refine ⟨h.ready, ⟨m, isr_mails now Spi.cmdTxpoll s m hm⟩, h.tracker, hread.2.1,
    fun _ _ => hread.2.2, fun _ hc => Bool.noConfusion hc, fun _ _ => rfl, fun hpolls => ?_, ?_⟩
  · exact ⟨(h.first hpolls).1, fun _ _ => rfl⟩
  · rw [hframe]
    exact h.second

theorem idle_sound (rx : Byte) (s : Session) (h : s.Sound) (hidle : s.clocked = []) :
    Sound { s with spi := (s.spi.spi0Isr now rx).1 } := by
  have hframe : (s.spi.spi0Isr now rx).1.txFrame = s.spi.txFrame :=
    Spi.isr_txFrame s.spi (now, rx)
  obtain ⟨m, hm⟩ := h.mails
  refine ⟨h.ready, ⟨m, isr_mails now rx s m hm⟩, h.tracker, h.short,
    fun hc => absurd hidle hc, fun hc => absurd hidle hc, fun _ hc => absurd hidle hc,
    fun hpolls => ⟨(h.first hpolls).1, fun _ hc => absurd hidle hc⟩, ?_⟩
  dsimp only
  rw [hframe]
  exact h.second

/-- The byte that completes a poll. A whole poll takes what is in the buffer. A
    poll with a load in it may make out a report nobody sent, and then the one
    in the buffer has not been taken. -/
theorem complete_mails (rx : Byte) (s : Session) (h : s.Sound) (hrx : rx ≠ Spi.cmdTxpoll)
    (hclocked : s.clocked ≠ []) (hlast : s.clocked.length = 38) (m : Mailbox Report)
    (hm : s.Mails m) :
    ∃ m' : Mailbox Report, m'.slot = s.buffered ∧ m'.taken = (s.taken || s.whole) ∧
      m'.got = s.received ++
        (keyboardReport? (s.clocked ++ [(s.spi.spi0Isr now rx).2.resp])).toList ∧
      s.handed = m'.sent ++ s.due := by
  cases hwhole : s.whole with
  | true =>
    have hbytes := (byte_reading now s rx hrx h.short (h.whole hclocked hwhole)).2
    rw [hlast, List.take_of_length_le (by rw [Vector.length_toList])] at hbytes
    refine ⟨m.take, hm.1, (Bool.or_true _).symm, ?_, hm.2.2.2⟩
    show m.got ++ m.slot.toList = _
    rw [hm.1, hm.2.2.1, hbytes]
    rfl
  | false =>
    rw [Bool.or_false]
    cases hreport : keyboardReport? (s.clocked ++ [(s.spi.spi0Isr now rx).2.resp]) with
    | none =>
      refine ⟨m, hm.1, hm.2.1, ?_, hm.2.2.2⟩
      rw [hm.2.2.1]
      exact (List.append_nil _).symm
    | some report =>
      -- the first byte came from a keyboard frame that is still to be polled
      have hkey : IsKeyboard s.clocked := by
        by_contra hc
        rw [← isKeyboard_append s.clocked [(s.spi.spi0Isr now rx).2.resp] hclocked,
          ← keyboardReport?_eq_none, hreport] at hc
        exact Option.some_ne_none report hc
      have htorn := h.torn hclocked hwhole hkey
      have hnot : ¬ m.Free := fun hfree =>
        Bool.noConfusion (((free_iff s m hm).mp hfree htorn.1).symm.trans htorn.2)
      refine ⟨m.stray report hnot, hm.1, hm.2.1, ?_, hm.2.2.2⟩
      show m.got ++ [report] = _
      rw [hm.2.2.1]
      rfl

theorem read_sound (rx : Byte) (s : Session) (h : s.Sound) (hrx : rx ≠ Spi.cmdTxpoll)
    (hclocked : s.clocked ≠ []) :
    (read (s.spi.spi0Isr now rx).2.resp { s with spi := (s.spi.spi0Isr now rx).1 }).Sound := by
  have hframe : (s.spi.spi0Isr now rx).1.txFrame = s.spi.txFrame :=
    Spi.isr_txFrame s.spi (now, rx)
  have hfront := isKeyboard_append s.clocked [(s.spi.spi0Isr now rx).2.resp] hclocked
  obtain ⟨m, hm⟩ := h.mails
  have hm' := isr_mails now rx s m hm
  unfold read
  dsimp only
  by_cases hmore : s.clocked.length + 1 < 39
  · rw [if_pos hmore]
    refine ⟨h.ready, ⟨m, hm'⟩, h.tracker, ?_, fun _ hwhole => ?_, fun _ hwhole hkey => ?_,
      fun htaken _ => h.again htaken hclocked, fun hpolls => ?_, ?_⟩
    · rw [List.length_append]
      exact hmore
    · -- the byte is the next of the frame that is being read
      have hnext := byte_reading now s rx hrx h.short (h.whole hclocked hwhole)
      unfold Reading
      dsimp only
      rw [hframe, List.length_append]
      exact hnext
    · dsimp only
      rw [hframe]
      exact h.torn hclocked hwhole (hfront.mp hkey)
    · exact ⟨(h.first hpolls).1, fun hkey _ => (h.first hpolls).2 (hframe ▸ hkey) hclocked⟩
    · dsimp only
      rw [hframe]
      exact h.second
  · rw [if_neg hmore]
    have hshort := h.short
    -- with this byte the report is complete, and it is handed on
    obtain ⟨m', hslot, htaken, hgot, hsent⟩ :=
      complete_mails now rx s h hrx hclocked (by omega) m hm
    refine ⟨h.ready, ⟨m', ?_, htaken, hgot, hsent⟩, h.tracker, show 0 < 39 by omega,
      fun hc => absurd rfl hc, fun hc => absurd rfl hc, fun _ hc => absurd rfl hc,
      fun hpolls => ⟨?_, fun _ hc => absurd rfl hc⟩, fun hpolls hkey => ?_⟩
    · unfold buffered
      dsimp only
      rw [hframe]
      exact hslot
    · by_cases hdue : s.due = []
      · exact hdue
      · dsimp only at hpolls
        rw [show due { s with spi := (s.spi.spi0Isr now rx).1 } = s.due from rfl,
          if_neg hdue] at hpolls
        exact (h.first hpolls).1
    · -- the poll before was over when this one began, so this one is whole
      dsimp only at hpolls hkey ⊢
      rw [show due { s with spi := (s.spi.spi0Isr now rx).1 } = s.due from rfl] at hpolls
      rw [hframe] at hkey
      split at hpolls
      · rw [(h.first (by omega)).2 hkey hclocked, Bool.or_true]
      · rw [h.second hpolls hkey, Bool.true_or]

theorem byte_sound (rx : Byte) (s : Session) (h : s.Sound) : (s.byte now rx).Sound := by
  by_cases hrx : rx = Spi.cmdTxpoll
  · rw [hrx]
    exact poll_sound now s h
  · unfold byte
    dsimp only
    rw [if_neg hrx]
    by_cases hclocked : s.clocked = []
    · rw [if_pos hclocked]
      exact idle_sound now rx s h hclocked
    · rw [if_neg hclocked]
      exact read_sound now rx s h hrx hclocked

/-! ### Runs -/

theorem step_sound (e : Move) (h : s.Sound) (hon : s.OnAtMain e ∧ s.KeepsKeyboard e) :
    (s.step e).Sound := by
  cases e with
  | main e => exact main_sound s e h hon.1
  | load => exact load_sound s h hon.2
  | byte now rx => exact byte_sound now rx s h

theorem arrived_of_sound (h : s.Sound) : s.Arrived := by
  obtain ⟨m, hslot, htaken, hgot, hsent⟩ := h.mails
  unfold Arrived pending
  cases hpolled : s.taken with
  | true =>
    -- what has been polled has been received as well
    have hfree : m.Free := Or.inr (htaken.trans hpolled)
    rw [if_pos rfl]
    exact ⟨m.sent, hsent, hgot ▸ m.sent_sublist hfree⟩
  | false =>
    obtain ⟨done, hdone, hsub⟩ := m.delivered
    rw [if_neg Bool.false_ne_true]
    refine ⟨done, ?_, hgot ▸ hsub⟩
    rw [hsent, hdone, hslot, List.append_assoc]
    rfl

theorem upToDate_of_sound (h : s.Sound) : s.UpToDate := by
  intro hpolls
  obtain ⟨m, hm⟩ := h.mails
  have hfree : m.Free := (free_iff s m hm).mpr (h.second hpolls)
  have hlatest := m.latest_of_free hfree
  have hsent := hm.2.2.2
  rw [(h.first (Nat.le_of_succ_le hpolls)).1, List.append_nil] at hsent
  rw [← h.tracker, ← hm.2.2.1, hlatest, hsent]

theorem start_sound (config : KeymapConfig) (nkro rgbEnabled : Bool) (r : Readings) :
    (start config nkro rgbEnabled r).Sound := by
  have hzeros : keyboardReport? Spi.reset.txFrame.toList = none :=
    (keyboardReport?_eq_none _).mpr (by decide)
  have hempty : Tracker.empty.report = Report.empty := by decide
  have hdue : (start config nkro rgbEnabled r).due = [] := by
    unfold due start World.powerOn keyboardPostInitUser Driver.bluetoothInit
    dsimp only
    split
    · exact List.filterMap_eq_nil_iff.mpr
        (List.forall_mem_singleton.mpr (keyboardReport?_sealFrame _ _ (by decide)))
    · rfl
  refine ⟨rfl, ⟨Mailbox.empty, hzeros.symm, rfl, rfl, ?_⟩, hempty.symm, show 0 < 39 by omega,
    fun hc => absurd rfl hc, fun hc => absurd rfl hc, fun hc => Bool.noConfusion hc,
    fun hc => absurd hc (Nat.not_succ_le_zero 0), fun hc => absurd hc (Nat.not_succ_le_zero 1)⟩
  rw [hdue]
  rfl

/-- From power-on, in a run with Bluetooth on at every key event, whatever the
    bytes and the turns of the main loop: if every load keeps the keyboard frame,
    every report arrives, and a quiet poll leaves the module up to date, in every
    state of the run. -/
theorem reports_arrive (config : KeymapConfig) (nkro rgbEnabled : Bool) (r : Readings)
    (moves : List Move) (hon : Along step OnAtMain (start config nkro rgbEnabled r) moves)
    (hkeeps : Along step KeepsKeyboard (start config nkro rgbEnabled r) moves) :
    Always step (fun s => s.Arrived ∧ s.UpToDate) (start config nkro rgbEnabled r) moves :=
  always_of_along step (fun s e => s.OnAtMain e ∧ s.KeepsKeyboard e) Sound _
    (fun s h => ⟨arrived_of_sound s h, upToDate_of_sound s h⟩) step_sound moves _
    (start_sound config nkro rgbEnabled r) ((along_and step _ _ moves _).mpr ⟨hon, hkeeps⟩)

/-! ### A key let go too soon -/

instance decidableOnAtMain (s : Session) : (e : Move) → Decidable (s.OnAtMain e)
  | .main e => inferInstanceAs (Decidable (OnAtKeys s.world e))
  | .load => inferInstanceAs (Decidable True)
  | .byte _ _ => inferInstanceAs (Decidable True)

instance decidableNextKeeps (s : Session) : (frames : List TxFrame) → Decidable (s.NextKeeps frames)
  | [] => inferInstanceAs (Decidable True)
  | _ :: _ => inferInstanceAs (Decidable (_ → _))

instance decidableKeepsKeyboard (s : Session) : (e : Move) → Decidable (s.KeepsKeyboard e)
  | .main _ => inferInstanceAs (Decidable True)
  | .load => decidableNextKeeps s s.waiting
  | .byte _ _ => inferInstanceAs (Decidable True)

/-- The toggle on, the selector in position 1. -/
def toggleOn : Readings :=
  { charging := false, toggle := false, slotHi := true, slotLo := true }

/-- Bluetooth comes on. -/
def comesOn : List Move :=
  [.load] ++ List.replicate 17 (.main (.scan 0 toggleOn 0x02 false)) ++ [.load, .load]

/-- One poll of the module. -/
def onePoll : List Move :=
  .byte 0 Spi.cmdTxpoll :: List.replicate 38 (.byte 0 0)

def letGoTooSoon : List Move :=
  comesOn ++ [.main (keyAt 2 1 true), .load, .main (keyAt 2 1 false), .load] ++ onePoll

/-- A is polled before it is let go. -/
def letGoInTime : List Move :=
  comesOn ++ [.main (keyAt 2 1 true), .load] ++ onePoll ++ [.main (keyAt 2 1 false), .load] ++
    onePoll ++ onePoll

theorem letGoTooSoon_end :
    (run step (start KeymapConfig.default true true toggleOn) letGoTooSoon).handed =
        [Report.ofKeys 0 #v[0x04, 0, 0, 0, 0, 0], Report.empty] ∧
      (run step (start KeymapConfig.default true true toggleOn) letGoTooSoon).pending = [] ∧
      (run step (start KeymapConfig.default true true toggleOn) letGoTooSoon).received =
        [Report.empty] := by
  decide +kernel

/-- The press never arrives. -/
theorem letGoTooSoon_loses :
    ¬ ∀ (config : KeymapConfig) (nkro rgbEnabled : Bool) (r : Readings) (moves : List Move),
      Along step OnAtMain (start config nkro rgbEnabled r) moves →
      Always step (fun s => s.Arrived ∧ s.UpToDate) (start config nkro rgbEnabled r) moves := by
  intro h
  have hall := h KeymapConfig.default true true toggleOn letGoTooSoon (by decide +kernel)
  have hend := (always_iff_visited step _ letGoTooSoon _).mp hall letGoTooSoon []
    (List.append_nil _).symm
  obtain ⟨done, hsplit, hsub⟩ := hend.1
  rw [letGoTooSoon_end.1, letGoTooSoon_end.2.1, List.append_nil] at hsplit
  rw [letGoTooSoon_end.2.2, ← hsplit] at hsub
  -- two reports cannot have arrived in one poll
  exact absurd hsub.length_le (by decide)

/-- The general statement, for the key let go in time. -/
theorem reports_arrive_in_time :
    Always step (fun s => s.Arrived ∧ s.UpToDate)
      (start KeymapConfig.default true true toggleOn) letGoInTime :=
  reports_arrive KeymapConfig.default true true toggleOn letGoInTime (by decide +kernel)
    (by decide +kernel)

end Session

end Link

end K530
