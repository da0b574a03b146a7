import K530.Lib.Run
import K530.Bluetooth.Adafruit

/-!
# Every Item Once

The module puts a command together from the packets it takes, up to one whose
`more` bit is 0. `Delivers` says that the commands with a packet of an item in them
are those of the queued items, in their order and each once: all those of the items
that have left the queue, and none twice.

An item leaves the queue when the last of its packets has been taken, and is sent
again from its first packet otherwise. The module knows nothing of that. A packet
that fails at the beginning of a command leaves nothing behind, but one that fails
later leaves the beginning of a command which the next command is added to; and if it
is in the second command of a mouse report, the first is sent again besides.
`delivers_along` is the run without either.

## Main definitions

* `QueueItem.commands`: The commands of an item.

## Theorems

* `delivers_along`: Every item once, along a run.
* `delivers_broken`: Two commands in one.
-/

namespace K530

open StepRun

/-! ### The ring -/

namespace RingBuffer

variable {α : Type} {size : Nat} [NeZero size]

theorem contents_enqueue (item : α) (r : RingBuffer α size) (h : (r.enqueue item).1) :
    (r.enqueue item).2.contents = r.contents ++ [item] := by
  unfold enqueue at h ⊢
  split at h
  · exact absurd h Bool.false_ne_true
  · rename_i hroom
    have hbuf : (fun p => some (Function.update r.buf r.head item p)) =
        Function.update (fun p => some (r.buf p)) r.head (some item) := by
      funext p
      by_cases hp : p = r.head
      · simp [hp]
      · simp [Function.update_of_ne hp]
    rw [if_neg hroom]
    unfold contents
    dsimp only
    rw [hbuf, Ring.contents_push, if_neg hroom]

theorem contents_peek (item : α) (r : RingBuffer α size) (h : r.peek = some item) :
    r.contents = item :: r.drop.contents := by
  unfold peek at h
  split at h
  · simp at h
  · rename_i hne
    unfold drop contents Ring.contents
    rw [if_neg hne, Ring.positions_cons _ _ hne, List.filterMap_cons]
    simp at h
    simp [h]

end RingBuffer

/-! ### The module -/

/-- The commands of an item. -/
def QueueItem.commands : QueueItem → List (List Char)
  | keyReport modifier keys => [AdafruitBle.keyText modifier keys]
  | consumer usage => [AdafruitBle.consumerText usage]
  | mouseMove x y scroll pan buttons =>
    [AdafruitBle.moveText x y scroll pan, AdafruitBle.buttonText buttons]

/-- The commands that have been put together, with whether a packet of an item is in
    them, and the one that is not complete yet. -/
@[ext]
structure Assembly where
  done : List (Bool × List Char)
  ofItem : Bool
  text : List Char

namespace Assembly

/-- The module takes a packet. -/
def take (a : Assembly) (packet : Bool × SdepMsg) : Assembly :=
  if packet.2.more then
    { a with ofItem := a.ofItem || packet.1, text := a.text ++ packet.2.payload }
  else
    { done := a.done ++ [(a.ofItem || packet.1, a.text ++ packet.2.payload)]
      ofItem := false
      text := [] }

def takeAll (a : Assembly) (packets : List (Bool × SdepMsg)) : Assembly := packets.foldl take a

def Idle (a : Assembly) : Prop := a.ofItem = false ∧ a.text = []

theorem takeAll_fragments (ofItem : Bool) (fuel : Nat) :
    ∀ (cmd : List Char) (a : Assembly),
      a.takeAll ((AdafruitBle.fragments fuel cmd).map (fun msg => (ofItem, msg))) =
        { done := a.done ++ [(a.ofItem || ofItem, a.text ++ cmd)]
          ofItem := false
          text := [] } := by
  induction fuel with
  | zero => intro cmd a; rfl
  | succ fuel ih =>
    intro cmd a
    unfold AdafruitBle.fragments
    split
    · rename_i hlong
      have hmore : (AdafruitBle.sdepBuildPkt AdafruitBle.bleAtWrapper
          (cmd.take AdafruitBle.sdepMaxPayload) true).more := by
        simp [AdafruitBle.sdepBuildPkt]
        omega
      rw [List.map_cons]
      unfold takeAll at ih ⊢
      rw [List.foldl_cons, ih]
      unfold take
      rw [if_pos hmore]
      simp [AdafruitBle.sdepBuildPkt]
    · rfl

theorem takeAll_atPackets (ofItem : Bool) (cmd : List Char) (a : Assembly) (ha : a.Idle) :
    a.takeAll ((AdafruitBle.atPackets cmd).map (fun msg => (ofItem, msg))) =
      { done := a.done ++ [(ofItem, cmd)], ofItem := false, text := [] } := by
  unfold AdafruitBle.atPackets
  rw [takeAll_fragments, ha.1, ha.2]
  rfl

end Assembly

/-- What the module has made of the packets it has taken. -/
def assemble (received : List (Bool × SdepMsg)) : Assembly :=
  Assembly.takeAll { done := [], ofItem := false, text := [] } received

theorem assemble_append (received packets : List (Bool × SdepMsg)) :
    assemble (received ++ packets) = (assemble received).takeAll packets :=
  List.foldl_append

/-- The complete commands that have a packet of an item in them. -/
def itemCommands (received : List (Bool × SdepMsg)) : List (List Char) :=
  ((assemble received).done.filter (fun command => command.1)).map (fun command => command.2)

/-- A command is taken whole or not at all. -/
def AtWorld.Whole (w : AtWorld) : Prop := w.fate = none ∨ w.fate = some 0

/-- So is an item. -/
def SendWorld.Whole (w : SendWorld) : Prop :=
  (w.commands 0).fate = some 0 ∨ (w.commands 0).fate = none ∧ (w.commands 1).fate = none

/-- And whatever the task sends. -/
structure TaskWorld.Whole (w : TaskWorld) : Prop where
  configure : ∀ n, (w.configure n).Whole
  send : w.send.Whole
  eventStatus : w.eventStatus.Whole
  eventEnable : ∀ n, (w.eventEnable n).Whole
  getConn : w.getConn.Whole

/-- In no step a packet fails that is not the first. -/
def BleInput.Whole : BleInput → Prop
  | call _ => True
  | turn w => w.Whole
  | task w => w.Whole

namespace AdafruitBle

/-! ### Texts -/

theorem decimal_length (b : Byte) : (decimal b).length ≤ 4 := by
  revert b
  decide +kernel

theorem snprintf_eq {text : List Char} (h : text.length ≤ 47) : snprintf text = text :=
  List.take_of_length_le h

theorem keyText_length (modifier : Byte) (keys : Vector Byte 6) :
    (keyText modifier keys).length ≤ 47 := by
  have hname : "AT+BLEKEYBOARDCODE=".toList.length = 19 := rfl
  have hzero : "-00".toList.length = 3 := rfl
  unfold keyText
  simp only [List.length_append, hname, hzero, hex2, List.length_flatMap, List.length_cons,
    List.length_nil, List.map_const', List.sum_replicate, Vector.length_toList]
  decide

theorem consumerText_length (usage : BitVec 16) : (consumerText usage).length ≤ 47 := by
  have hname : "AT+BLEHIDCONTROLKEY=0x".toList.length = 22 := rfl
  unfold consumerText
  simp only [List.length_append, hname, hex4, hex2, List.length_cons, List.length_nil]
  decide

theorem moveText_length (x y scroll pan : Byte) : (moveText x y scroll pan).length ≤ 47 := by
  have hname : "AT+BLEHIDMOUSEMOVE=".toList.length = 19 := rfl
  have hx := decimal_length x
  have hy := decimal_length y
  have hscroll := decimal_length scroll
  have hpan := decimal_length pan
  unfold moveText
  simp only [List.length_append, List.length_cons, hname]
  omega

/-! ### Commands -/

theorem sendPackets_none (msgs : List SdepMsg) : sendPackets none msgs = (msgs, true) := by
  induction msgs with
  | nil => rfl
  | cons msg msgs ih => simp [sendPackets, ih]

theorem atPackets_cons (cmd : List Char) : ∃ msg msgs, atPackets cmd = msg :: msgs := by
  unfold atPackets
  generalize cmd.length = fuel
  cases fuel with
  | zero => exact ⟨_, _, rfl⟩
  | succ fuel =>
    unfold fragments
    split
    · exact ⟨_, _, rfl⟩
    · exact ⟨_, _, rfl⟩

structure SameQueue (s s' : AdafruitBle) : Prop where
  sendBuf : s'.sendBuf = s.sendBuf
  waiting : s'.waiting = s.waiting
  queued : s'.queued = s.queued

theorem SameQueue.refl (s : AdafruitBle) : s.SameQueue s := ⟨rfl, rfl, rfl⟩

theorem SameQueue.trans {s s' s'' : AdafruitBle} (h : s.SameQueue s') (h' : s'.SameQueue s'') :
    s.SameQueue s'' :=
  ⟨h'.sendBuf.trans h.sendBuf, h'.waiting.trans h.waiting, h'.queued.trans h.queued⟩

structure Between (s : AdafruitBle) (commands : List (List Char)) : Prop where
  idle : (assemble s.received).Idle
  commands : itemCommands s.received = commands

theorem between_received {s s' : AdafruitBle} {commands : List (List Char)} (ofItem : Bool)
    (cmd : List Char) (h : s.Between commands)
    (hreceived : s'.received =
      s.received ++ (atPackets cmd).map (fun msg => (ofItem, msg))) :
    s'.Between (commands ++ if ofItem then [cmd] else []) := by
  have hcommands := h.commands
  unfold itemCommands at hcommands
  constructor
  · rw [hreceived, assemble_append, Assembly.takeAll_atPackets _ _ _ h.idle]
    exact ⟨rfl, rfl⟩
  · unfold itemCommands
    rw [hreceived, assemble_append, Assembly.takeAll_atPackets _ _ _ h.idle]
    cases ofItem with
    | false => simpa using hcommands
    | true => simp [hcommands]

theorem between_of_received {s s' : AdafruitBle} {commands : List (List Char)}
    (h : s.Between commands) (hreceived : s'.received = s.received) : s'.Between commands := by
  constructor
  · rw [hreceived]
    exact h.idle
  · rw [hreceived]
    exact h.commands

theorem atCommand_spec (resp : Bool) (w : AtWorld) (cmd : List Char) (s : AdafruitBle)
    (commands : List (List Char)) (hw : w.Whole) (h : s.Between commands) :
    s.SameQueue (atCommand resp w cmd s).2 ∧
      (w.fate = none ∧ (resp = false → (atCommand resp w cmd s).1) ∧
          (atCommand resp w cmd s).2.Between (commands ++ if resp then [] else [cmd]) ∨
        w.fate = some 0 ∧ (atCommand resp w cmd s).1 = false ∧
          (atCommand resp w cmd s).2.Between commands) := by
  rcases hw with hall | hnone
  · have hsent : sendPackets w.fate (atPackets cmd) = (atPackets cmd, true) := by
      rw [hall, sendPackets_none]
    cases resp with
    | true =>
      refine ⟨?_, Or.inl ⟨hall, by simp, ?_⟩⟩
      · constructor <;> simp [atCommand, hsent, respBufWait]
      · exact between_received false cmd h (by simp [atCommand, hsent, respBufWait])
    | false =>
      refine ⟨?_, Or.inl ⟨hall, ?_, ?_⟩⟩
      · constructor <;> simp [atCommand, hsent, respBufEnqueue]
      · simp [atCommand, hsent]
      · exact between_received true cmd h (by simp [atCommand, hsent, respBufEnqueue])
  · rcases atPackets_cons cmd with ⟨msg, msgs, hmsgs⟩
    have hsent : sendPackets w.fate (atPackets cmd) = ([], false) := by
      rw [hnone, hmsgs]
      rfl
    refine ⟨?_, Or.inr ⟨hnone, by simp [atCommand, hsent], ?_⟩⟩
    · constructor <;> cases resp <;> simp [atCommand, hsent, respBufWait]
    · refine between_of_received h ?_
      cases resp <;> simp [atCommand, hsent, respBufWait]

theorem atCommand_task (w : AtWorld) (cmd : List Char) (s : AdafruitBle)
    (commands : List (List Char)) (hw : w.Whole) (h : s.Between commands) :
    s.SameQueue (atCommand true w cmd s).2 ∧ (atCommand true w cmd s).2.Between commands := by
  rcases atCommand_spec true w cmd s commands hw h
    with ⟨hqueue, ⟨-, -, hbetween⟩ | ⟨-, -, hbetween⟩⟩
  · exact ⟨hqueue, by simpa using hbetween⟩
  · exact ⟨hqueue, hbetween⟩

theorem processQueueItem_spec (w : SendWorld) (item : QueueItem) (s : AdafruitBle)
    (commands : List (List Char)) (hw : w.Whole) (h : s.Between commands) :
    s.SameQueue (processQueueItem w.commands item s).2 ∧
      ((processQueueItem w.commands item s).1 ∧
          (processQueueItem w.commands item s).2.Between (commands ++ item.commands) ∨
        (processQueueItem w.commands item s).1 = false ∧
          (processQueueItem w.commands item s).2.Between commands) := by
  have hfirst : (w.commands 0).Whole := by
    rcases hw with hnone | hall
    · exact Or.inr hnone
    · exact Or.inl hall.1
  cases item with
  | keyReport modifier keys =>
    unfold processQueueItem
    dsimp only
    rw [snprintf_eq (keyText_length modifier keys)]
    rcases atCommand_spec false (w.commands 0) (keyText modifier keys) s commands hfirst h
      with ⟨hqueue, ⟨-, hok, hbetween⟩ | ⟨-, hfailed, hbetween⟩⟩
    · exact ⟨hqueue, Or.inl ⟨hok rfl, hbetween⟩⟩
    · exact ⟨hqueue, Or.inr ⟨hfailed, hbetween⟩⟩
  | consumer usage =>
    unfold processQueueItem
    dsimp only
    rw [snprintf_eq (consumerText_length usage)]
    rcases atCommand_spec false (w.commands 0) (consumerText usage) s commands hfirst h
      with ⟨hqueue, ⟨-, hok, hbetween⟩ | ⟨-, hfailed, hbetween⟩⟩
    · exact ⟨hqueue, Or.inl ⟨hok rfl, hbetween⟩⟩
    · exact ⟨hqueue, Or.inr ⟨hfailed, hbetween⟩⟩
  | mouseMove x y scroll pan buttons =>
    unfold processQueueItem
    dsimp only
    rw [snprintf_eq (moveText_length x y scroll pan)]
    rcases atCommand_spec false (w.commands 0) (moveText x y scroll pan) s commands hfirst h
      with ⟨hqueue, ⟨hall, hok, hbetween⟩ | ⟨-, hfailed, hbetween⟩⟩
    · -- the second command is taken whole when the first is
      have hsecond : (w.commands 1).fate = none := by
        rcases hw with hnone | hboth
        · rw [hall] at hnone
          exact absurd hnone (by simp)
        · exact hboth.2
      rw [if_pos (hok rfl)]
      rcases atCommand_spec false (w.commands 1) (buttonText buttons) _ _ (Or.inl hsecond)
        hbetween with ⟨hqueue', ⟨-, hok', hbetween'⟩ | ⟨hnone, -, -⟩⟩
      · refine ⟨hqueue.trans hqueue', Or.inl ⟨hok' rfl, ?_⟩⟩
        simpa [QueueItem.commands] using hbetween'
      · rw [hsecond] at hnone
        exact absurd hnone (by simp)
    · rw [if_neg (by simp [hfailed])]
      exact ⟨hqueue, Or.inr ⟨hfailed, hbetween⟩⟩

theorem respBufReadOne_same (greedy : Bool) (look : RespLook) (s : AdafruitBle) :
    s.SameQueue (respBufReadOne greedy look s) ∧
      (respBufReadOne greedy look s).received = s.received := by
  unfold respBufReadOne
  split
  · exact ⟨SameQueue.refl s, rfl⟩
  · split
    · exact ⟨⟨rfl, rfl, rfl⟩, rfl⟩
    · split
      · exact ⟨⟨rfl, rfl, rfl⟩, rfl⟩
      · exact ⟨SameQueue.refl s, rfl⟩

/-! ### The queue -/

def Sound (s : AdafruitBle) : Prop :=
  ∃ left, s.queued = left ++ s.sendBuf.contents ∧ s.Between (left.flatMap QueueItem.commands)

theorem Sound.of_same {s s' : AdafruitBle} (h : s.Sound) (hqueue : s.SameQueue s')
    (hbetween : ∀ commands, s.Between commands → s'.Between commands) : s'.Sound := by
  rcases h with ⟨left, hqueued, hleft⟩
  refine ⟨left, ?_, hbetween _ hleft⟩
  rw [hqueue.queued, hqueue.sendBuf]
  exact hqueued

theorem Sound.congr {s s' : AdafruitBle} (h : s.Sound) (hqueued : s'.queued = s.queued)
    (hsendBuf : s'.sendBuf = s.sendBuf) (hreceived : s'.received = s.received) : s'.Sound := by
  rcases h with ⟨left, hcontents, hleft⟩
  refine ⟨left, ?_, between_of_received hleft hreceived⟩
  rw [hqueued, hsendBuf]
  exact hcontents

theorem respBufReadOne_sound (greedy : Bool) (look : RespLook) (s : AdafruitBle) (h : s.Sound) :
    (respBufReadOne greedy look s).Sound :=
  h.of_same (respBufReadOne_same greedy look s).1
    (fun _ hbetween => between_of_received hbetween (respBufReadOne_same greedy look s).2)

theorem atCommand_sound (w : AtWorld) (cmd : List Char) (s : AdafruitBle) (hw : w.Whole)
    (h : s.Sound) : (atCommand true w cmd s).2.Sound := by
  rcases h with ⟨left, hqueued, hleft⟩
  have hspec := atCommand_task w cmd s _ hw hleft
  refine ⟨left, ?_, hspec.2⟩
  rw [hspec.1.queued, hspec.1.sendBuf]
  exact hqueued

theorem sendBufSendOne_sound (w : SendWorld) (s : AdafruitBle) (hw : w.Whole) (h : s.Sound) :
    (sendBufSendOne w s).Sound := by
  unfold sendBufSendOne
  split
  · exact h
  · split
    · exact h
    · rename_i item hpeek
      rcases h with ⟨left, hqueued, hleft⟩
      have hcontents := RingBuffer.contents_peek item s.sendBuf hpeek
      rcases processQueueItem_spec w item s _ hw hleft
        with ⟨hqueue, ⟨hok, hbetween⟩ | ⟨hfailed, hbetween⟩⟩
      · dsimp only
        rw [if_pos hok]
        refine ⟨left ++ [item], ?_, ?_⟩
        · dsimp only
          rw [hqueue.queued, hqueue.sendBuf, hqueued, hcontents]
          simp
        · rw [List.flatMap_append, List.flatMap_singleton]
          exact between_of_received hbetween rfl
      · dsimp only
        rw [if_neg (by simp [hfailed])]
        refine respBufReadOne_sound true w.look _ ⟨left, ?_, hbetween⟩
        rw [hqueue.queued, hqueue.sendBuf]
        exact hqueued

theorem enqueueItems_sound (items : List QueueItem) :
    ∀ s : AdafruitBle, s.Sound → (enqueueItems items s).Sound := by
  induction items with
  | nil => intro s h; exact h.congr rfl rfl rfl
  | cons item items ih =>
    intro s h
    unfold enqueueItems
    split
    · rename_i hroom
      refine ih _ ?_
      rcases h with ⟨left, hqueued, hleft⟩
      refine ⟨left, ?_, ⟨hleft.idle, hleft.commands⟩⟩
      dsimp only
      rw [RingBuffer.contents_enqueue item s.sendBuf hroom, hqueued, List.append_assoc]
    · exact h.congr rfl rfl rfl

/-! ### The task -/

theorem configureLoop_sound (cmds : List (List Char)) :
    ∀ (w : Nat → AtWorld) (s : AdafruitBle), (∀ n, (w n).Whole) → s.Sound →
      (configureLoop w cmds s).2.Sound := by
  induction cmds with
  | nil => intro w s _ h; exact h
  | cons cmd cmds ih =>
    intro w s hw h
    have hsent := atCommand_sound (w 0) cmd s (hw 0) h
    unfold configureLoop
    dsimp only
    split
    · exact ih _ _ (fun n => hw (n + 1)) hsent
    · exact hsent

theorem enableKeyboard_sound (product : List Char) (w : Nat → AtWorld) (s : AdafruitBle)
    (hw : ∀ n, (w n).Whole) (h : s.Sound) : (enableKeyboard product w s).2.Sound := by
  have hlooped := configureLoop_sound (configureCommands product) w { s with configured := false }
    hw (h.congr rfl rfl rfl)
  exact hlooped.congr rfl rfl rfl

theorem updateEvents_sound (w : TaskWorld) (s : AdafruitBle) (hw : w.eventStatus.Whole)
    (h : s.Sound) : (updateEvents w s).Sound := by
  unfold updateEvents
  split
  · exact atCommand_sound w.eventStatus _ s hw h
  · exact h

theorem probeEvents_sound (w : Nat → AtWorld) (s : AdafruitBle) (hw : ∀ n, (w n).Whole)
    (h : s.Sound) : (probeEvents w s).Sound := by
  have hfirst := atCommand_sound (w 0) "AT+EVENTENABLE=0x1".toList s (hw 0) h
  have hsecond := atCommand_sound (w 1) "AT+EVENTENABLE=0x2".toList _ (hw 1) hfirst
  unfold probeEvents
  split
  · exact h
  · dsimp only
    split
    · exact hsecond.congr rfl rfl rfl
    · exact hfirst.congr rfl rfl rfl

theorem updateConnection_sound (w : TaskWorld) (s : AdafruitBle)
    (hw : ∀ n, (w.eventEnable n).Whole) (hconn : w.getConn.Whole) (h : s.Sound) :
    (updateConnection w s).Sound := by
  unfold updateConnection
  split
  · exact atCommand_sound w.getConn _ _ hconn (probeEvents_sound w.eventEnable s hw h)
  · exact h

theorem task_sound (product : List Char) (w : TaskWorld) (s : AdafruitBle) (hw : w.Whole)
    (h : s.Sound) : (task product w s).Sound := by
  have henabled : (if s.configured then (true, s)
      else enableKeyboard product w.configure s).2.Sound := by
    split
    · exact h
    · exact enableKeyboard_sound product w.configure s hw.configure h
  unfold task
  generalize (if s.configured then (true, s) else enableKeyboard product w.configure s) = enabled
    at henabled
  dsimp only
  split
  · exact updateConnection_sound w _ hw.eventEnable hw.getConn
      (updateEvents_sound w _ hw.eventStatus
        (sendBufSendOne_sound w.send _ hw.send (respBufReadOne_sound true w.look _ henabled)))
  · exact henabled

theorem step_sound (product : List Char) (s : AdafruitBle) (i : BleInput) (h : s.Sound)
    (hi : i.Whole) : (step product s i).Sound := by
  cases i with
  | call c =>
    unfold step
    dsimp only
    split
    · exact enqueueItems_sound c.items s h
    · exact h
  | turn w =>
    unfold step
    dsimp only
    split
    · exact h
    · exact enqueueItems_sound s.waiting _ (sendBufSendOne_sound w s hi h)
  | task w =>
    unfold step
    dsimp only
    split
    · exact task_sound product w s hi h
    · exact h

/-! ### Runs -/

/-- After a reset. -/
def init : AdafruitBle :=
  { configured := false
    eventFlags := false
    sendBuf := { buf := fun _ => .keyReport 0 (Vector.replicate 6 0), head := 0, tail := 0 }
    respBuf := { buf := fun _ => 0, head := 0, tail := 0 }
    waiting := []
    queued := []
    received := [] }

theorem init_sound : init.Sound :=
  ⟨[], rfl, ⟨⟨rfl, rfl⟩, rfl⟩⟩

/-- The commands with a packet of an item in them are those of the queued items, in
    order and each once, and those of the items that have left the queue are there. -/
def Delivers (s : AdafruitBle) : Prop :=
  ∃ left, s.queued = left ++ s.sendBuf.contents ∧
    left.flatMap QueueItem.commands <+: itemCommands s.received ∧
    itemCommands s.received <+: s.queued.flatMap QueueItem.commands

theorem Sound.delivers {s : AdafruitBle} (h : s.Sound) : s.Delivers := by
  rcases h with ⟨left, hqueued, hleft⟩
  refine ⟨left, hqueued, ?_, ?_⟩
  · rw [hleft.commands]
  · rw [hleft.commands, hqueued, List.flatMap_append]
    exact List.prefix_append _ _

/-- From a reset, every state of a run delivers every item once and in order, if in no
    step a packet fails but the first of a command that is not the second of a mouse
    report. -/
theorem delivers_along (product : List Char) (inputs : List BleInput)
    (h : ∀ i ∈ inputs, i.Whole) : Always (step product) Delivers init inputs :=
  always_of_along (step product) (fun _ i => i.Whole) Sound Delivers (fun _ hs => hs.delivers)
    (fun s i hs hi => step_sound product s i hs hi) inputs init init_sound
    (along_of_forall _ _ inputs (fun _ i hi => h i hi) init)

/-- A command that is taken, and answered. -/
def taken : AtWorld := { fate := none, now := 0, response := true }

/-- Nothing to be seen. -/
def noLook : RespLook := { pin := false, packets := [], now := 0 }

/-- A run of the task in which a packet of the item may fail. -/
def taskWith (fate : Option Nat) : TaskWorld :=
  { configure := fun _ => taken, look := noLook,
    send := { commands := fun _ => { taken with fate := fate }, look := noLook }, pin := false,
    eventStatus := taken, poll := false, eventEnable := fun _ => taken, getConn := taken }

/-- A key that is sent at the second attempt. -/
theorem delivers_along_retry :
    Always (step "K530".toList) Delivers init
      [.call (.sendConsumerKey 0x00E9), .task (taskWith (some 0)), .task (taskWith none)] := by
  refine delivers_along _ _ ?_
  have htaken : taken.Whole := Or.inl rfl
  intro i hi
  simp only [List.mem_cons, List.not_mem_nil, or_false] at hi
  rcases hi with rfl | rfl | rfl
  · trivial
  · exact ⟨fun _ => htaken, Or.inl rfl, htaken, fun _ => htaken, htaken⟩
  · exact ⟨fun _ => htaken, Or.inr ⟨rfl, rfl⟩, htaken, fun _ => htaken, htaken⟩

/-- The second packet of a command fails, and the next attempt goes on where the first
    has stopped. -/
theorem delivers_broken :
    ¬ ∀ (product : List Char) (inputs : List BleInput),
      Always (step product) Delivers init inputs := by
  intro h
  have hrun := h [] [.call (.sendConsumerKey 0x00E9), .task (taskWith (some 1)),
    .task (taskWith none)]
  have hlast := (always_iff_visited _ _ _ _).mp hrun _ [] (List.append_nil _).symm
  rcases hlast with ⟨left, -, -, hcommands⟩
  exact absurd hcommands (by decide +kernel)

end AdafruitBle

end K530
