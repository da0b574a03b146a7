import K530.Quantum.Terminal

/-!
# A Terminal in its Bounds

A line and the lines before it always end with a zero, so that they are strings of 79 characters
at most. While the terminal is enabled, nothing is left of the words of an earlier line. This is
the invariant, and under it the history is safe: its position is checked before it is used, and
a line has room in each of its rows.

The other bounds are those of what is typed. A line with 79 characters has no room for another,
there is room for six words of 19 characters, the tables have no character of key 58, the numbers
of `keycode` and `keymap` are not checked, and a keycode of five digits has no room for its zero.
`print-buffer` has no room for any number.

## Main definitions

* `Terminal.line`, `Terminal.word`, `Terminal.commandName`: What is typed.

## Theorems

* `Terminal.terminal_in_bounds_iff`: The runs that are in bounds.
* `Terminal.terminal_out_of_bounds`: F1.
-/

namespace K530

open Checked
open CString

namespace Terminal

variable {b : TerminalBuild}

/-- The line that is being typed. -/
def line (t : Terminal b) : List Char := (text t.buffer).getD []

/-- A word of a line, or nothing. -/
def word (line : List Char) (i : Nat) : List Char := ((words line)[i]?).getD []

/-- What is compared with the names of the commands. -/
def commandName (line : List Char) : List Char := (cut false line).takeWhile (fun c => c ≠ nul)

/-- The line of a command asks for a place in the keymap, and `keycode` for a keycode of four
    digits there. `print-buffer` cannot be in bounds. -/
def CommandFits (b : TerminalBuild) (line : List Char) : TerminalCommand → Prop
  | .keycode => word line 1 ≠ [] → word line 2 ≠ [] → word line 3 ≠ [] →
      ∃ keycode, b.keymapAt (number (word line 1)) (number (word line 2))
        (number (word line 3)) = some keycode ∧ keycode.toNat < 10000
  | .keymap => word line 1 ≠ [] → number (word line 1) < b.layers
  | .printBuffer => False
  | _ => True

/-- There is room for the words of a line, and its command is in bounds. -/
structure LineFits (b : TerminalBuild) (line : List Char) : Prop where
  count : (words line).length ≤ 6
  length : ∀ w ∈ words line, w.length < 20
  command : ∀ command, findCommand (commandName line) = some command → CommandFits b line command

/-- A key is in its table, and there is room for its character. -/
structure CharFits (keycode : Keycode) (mods : Byte) (line : List Char) : Prop where
  table : keycode = 58 → ¬ (shifted mods = true ∨ mods = 0)
  room : keycode ≤ 58 → charToAdd keycode mods ≠ some nul → line.length < 79

/-- The condition on a key, if the terminal is enabled. -/
def Safe (t : Terminal b) (k : TerminalKey) : Prop :=
  t.enabled = true → k.pressed = true → basicKeycode k.keycode < 256 →
    (basicKeycode k.keycode = kcEnter ∨ basicKeycode k.keycode = kcKpEnter →
      LineFits b t.line) ∧ CharFits (basicKeycode k.keycode) k.mods t.line

structure Sound (t : Terminal b) : Prop where
  buffer : Ended t.buffer
  lines : ∀ line ∈ t.cmdBuffer.toList, Ended line
  arguments : t.enabled = true → ∀ a ∈ t.arguments.toList, text a = some []

theorem Sound.text_buffer {t : Terminal b} (h : Sound t) : text t.buffer = some t.line := by
  obtain ⟨s, hs⟩ := h.buffer.text_total
  rw [line, hs, Option.getD_some]

theorem ended_lines : ∀ line ∈ (Vector.replicate b.cmdBuffSize
    (Vector.replicate 80 nul)).toList, Ended line := by
  intro line hline
  rw [Vector.toList_replicate] at hline
  rw [List.eq_of_mem_replicate hline]
  exact ended_replicate (by omega)

theorem init_sound : Sound (init b) :=
  ⟨ended_replicate (by omega), ended_lines, fun h => Bool.noConfusion h⟩

/-! ### What is always in bounds -/

theorem sendString_eq_some_iff {n : Nat} (v : Vector Char n) (t u : Terminal b) :
    sendString v t = some u ↔ (∃ s, text v = some s) ∧ t = u := by
  rw [sendString, Option.map_eq_some_iff]
  exact ⟨fun ⟨s, hs, heq⟩ => ⟨⟨s, hs⟩, heq⟩, fun ⟨⟨s, hs⟩, heq⟩ => ⟨s, hs, heq⟩⟩

theorem sendString_of_ended {n : Nat} {v : Vector Char n} (h : Ended v) (t : Terminal b) :
    sendString v t = some t :=
  (sendString_eq_some_iff v t t).mpr ⟨h.text_total, rfl⟩

theorem clearArguments_total (arguments : Vector (Vector Char 20) 6) :
    ∃ w, clearArguments arguments = some w ∧ ∀ a ∈ w.toList, text a = some [] := by
  have hturn : ∀ i < 6, ∀ v : Vector (Vector Char 20) 6,
      (∀ j < i, ∀ a, fetch v j = some a → text a = some []) →
      ∃ w, (fetch v i).bind (fun a => (strcpy a []).bind (store v i)) = some w ∧
        ∀ j < i + 1, ∀ a, fetch w j = some a → text a = some [] := by
    intro i hi v hv
    obtain ⟨a, ha⟩ := fetch_total v i hi
    obtain ⟨c, hc, hempty⟩ := strcpy_eq a [] List.not_mem_nil (by decide)
    refine ⟨v.setIfInBounds i c, ?_, fun j hj d hd => ?_⟩
    · rw [ha, Option.bind_some, hc, Option.bind_some, store_of_lt v i c hi]
    · rw [fetch_setIfInBounds v i j c hi] at hd
      by_cases hij : i = j
      · rw [if_pos hij, Option.some.injEq] at hd
        rwa [← hd]
      · rw [if_neg hij] at hd
        exact hv j (by omega) d hd
  obtain ⟨w, hw, hall⟩ := loop_total
    (fun i arguments => (fetch arguments i).bind (fun a => (strcpy a []).bind (store arguments i)))
    (fun i w => ∀ j < i, ∀ a, fetch w j = some a → text a = some []) 6 hturn arguments
    (fun j hj => absurd hj (Nat.not_lt_zero j))
  refine ⟨w, hw, fun a ha => ?_⟩
  obtain ⟨j, hj⟩ := List.mem_iff_getElem?.mp ha
  have hlt : j < 6 := (fetch_isSome_iff w j).mp (by rw [fetch, hj]; rfl)
  exact hall j hlt a hj

theorem clearLine_total (t : Terminal b) (hbuffer : Ended t.buffer)
    (hlines : ∀ line ∈ t.cmdBuffer.toList, Ended line) :
    ∃ u, t.clearLine = some u ∧ Sound u := by
  obtain ⟨buffer, hcopy, -⟩ := strcpy_eq t.buffer [] List.not_mem_nil (by decide)
  obtain ⟨arguments, hclear, hempty⟩ := clearArguments_total t.arguments
  refine ⟨{ t with buffer, arguments }, ?_, hbuffer.strcpy hcopy, hlines, fun _ => hempty⟩
  rw [clearLine, hcopy, Option.bind_some, hclear]
  rfl

theorem enableTerminal_total {t : Terminal b} (h : Sound t) :
    ∃ u, t.enableTerminal = some u ∧ Sound u :=
  clearLine_total { t.flushCmdBuffer with enabled := true } h.buffer ended_lines

theorem disableTerminal_sound (t : Terminal b) (hbuffer : Ended t.buffer)
    (hlines : ∀ line ∈ t.cmdBuffer.toList, Ended line) : Sound t.disableTerminal :=
  ⟨hbuffer, hlines, fun h => Bool.noConfusion h⟩

theorem moveLines_total (lines : Vector (Vector Char 80) b.cmdBuffSize)
    (h : ∀ line ∈ lines.toList, Ended line) :
    ∃ w, moveLines lines = some w ∧ ∀ line ∈ w.toList, Ended line := by
  refine loop_total _ (fun _ w => ∀ line ∈ w.toList, Ended line) _ (fun k hk v hv => ?_) lines h
  have hpos := b.cmdBuffSize_pos
  obtain ⟨line, hline⟩ := fetch_total v (b.cmdBuffSize - 1 - k) (by omega)
  obtain ⟨earlier, hearlier⟩ := fetch_total v (b.cmdBuffSize - 1 - k - 1) (by omega)
  obtain ⟨moved, hmoved, hend⟩ := (hv line (mem_of_fetch hline)).strncpy earlier
    (hv earlier (mem_of_fetch hearlier)) 80 (Nat.le_refl 80)
  obtain ⟨w, hw⟩ := store_total v (b.cmdBuffSize - 1 - k) moved (by omega)
  refine ⟨w, ?_, fun c hc => ?_⟩
  · dsimp only
    rw [hline, Option.bind_some, hearlier, Option.bind_some, hmoved, Option.bind_some, hw]
  · rcases mem_of_store hw hc with hold | rfl
    · exact hv c hold
    · exact hend

theorem pushToCmdBuffer_total {t : Terminal b} (h : Sound t) :
    ∃ cmdBuffer, t.pushToCmdBuffer = some { t with firstTime := false, cmdBuffer } ∧
      ∀ line ∈ cmdBuffer.toList, Ended line := by
  have hmoved : ∃ lines, (if t.firstTime then some t.cmdBuffer else moveLines t.cmdBuffer) =
      some lines ∧ ∀ line ∈ lines.toList, Ended line := by
    by_cases hfirst : t.firstTime
    · rw [if_pos hfirst]
      exact ⟨t.cmdBuffer, rfl, h.lines⟩
    · rw [if_neg hfirst]
      exact moveLines_total t.cmdBuffer h.lines
  obtain ⟨lines, hlines, hall⟩ := hmoved
  obtain ⟨row, hrow⟩ := fetch_total lines 0 b.cmdBuffSize_pos
  obtain ⟨copied, hcopied⟩ := Option.isSome_iff_exists.mp
    ((strcpy_isSome_iff row t.line).mpr (text_length_lt h.text_buffer))
  obtain ⟨cmdBuffer, hstore⟩ := store_total lines 0 copied b.cmdBuffSize_pos
  refine ⟨cmdBuffer, ?_, fun c hc => ?_⟩
  · rw [pushToCmdBuffer, hlines, Option.bind_some, h.text_buffer, Option.bind_some, hrow,
      Option.bind_some, hcopied, Option.bind_some, hstore]
    rfl
  · rcases mem_of_store hstore hc with hold | rfl
    · exact hall c hold
    · exact (hall row (mem_of_fetch hrow)).strcpy hcopied

theorem checkPos_mem (size : Nat) (pos : Int) (hsize : 0 < size) :
    0 ≤ checkPos size pos ∧ checkPos size pos < size := by
  unfold checkPos
  split_ifs <;> omega

theorem recall_total {t : Terminal b} (h : Sound t) (count : Nat) (hcount : count ≤ 80) :
    ∃ u, t.recallLine count = some u ∧ Sound u := by
  obtain ⟨hzero, hlt⟩ := checkPos_mem b.cmdBuffSize t.currentCmdBufferPos b.cmdBuffSize_pos
  obtain ⟨row, hrow⟩ := fetch_total t.cmdBuffer (checkPos b.cmdBuffSize t.currentCmdBufferPos).toNat
    (by omega)
  obtain ⟨buffer, hcopy, hend⟩ := h.buffer.strncpy row (h.lines row (mem_of_fetch hrow)) count
    hcount
  refine ⟨{ t with
    buffer, currentCmdBufferPos := checkPos b.cmdBuffSize t.currentCmdBufferPos }, ?_,
    hend, h.lines, h.arguments⟩
  rw [recallLine, if_neg (by omega), h.text_buffer, Option.bind_some, hrow, Option.bind_some, hcopy,
    Option.bind_some, sendString_of_ended hend]

theorem up_total {t : Terminal b} (h : Sound t) : ∃ u, t.up = some u ∧ Sound u := by
  obtain ⟨u, hu, hsound⟩ := recall_total h 80 (by omega)
  refine ⟨{ u with currentCmdBufferPos := (u.currentCmdBufferPos + 1).bmod (2 ^ 16) }, ?_,
    hsound.buffer, hsound.lines, hsound.arguments⟩
  rw [up, hu, Option.map_some]

theorem down_total {t : Terminal b} (h : Sound t) : ∃ u, t.down = some u ∧ Sound u := by
  obtain ⟨u, hu, hsound⟩ := recall_total h 79 (by omega)
  refine ⟨{ u with currentCmdBufferPos := (u.currentCmdBufferPos - 1).bmod (2 ^ 16) }, ?_,
    hsound.buffer, hsound.lines, hsound.arguments⟩
  rw [down, hu, Option.map_some]

theorem backspace_total {t : Terminal b} (h : Sound t) :
    ∃ out, t.backspace = some out ∧ Sound out.2 := by
  have hlen := text_length_lt h.text_buffer
  rw [backspace, h.text_buffer, Option.bind_some]
  dsimp only
  split
  · have hlt : t.line.length % 256 - 1 < 79 := by omega
    obtain ⟨buffer, hstore⟩ := store_total t.buffer (t.line.length % 256 - 1) nul (by omega)
    have hwrite : writeFrom [nul] (t.line.length % 256 - 1) t.buffer = some buffer := by
      rw [writeFrom, hstore]
      rfl
    refine ⟨(true, { t with buffer }), by rw [hstore, Option.map_some], ?_, h.lines, h.arguments⟩
    exact h.buffer.writeFrom hwrite (by rw [List.length_singleton]; omega) (fun _ => rfl)
  · exact ⟨(false, t), rfl, h⟩

/-! ### The words of a line -/

section Words

variable (arguments : Vector (Vector Char 20) 6) (i : Nat) (w : List Char)

theorem copyWord_isSome_iff :
    ((fetch arguments i).bind (fun a => (strcpy a w).bind (store arguments i))).isSome ↔
      i < 6 ∧ w.length < 20 := by
  by_cases hi : i < 6
  · obtain ⟨a, ha⟩ := fetch_total arguments i hi
    rw [ha, Option.bind_some, and_iff_right hi, ← strcpy_isSome_iff a w]
    exact bind_isSome_iff_of (fun c _ => (store_isSome_iff arguments i c).mpr hi)
  · have hnone := mt (fetch_isSome_iff arguments i).mp hi
    rw [Option.not_isSome_iff_eq_none.mp hnone]
    exact iff_of_false (fun h => Bool.noConfusion h) (fun h => hi h.1)

theorem copyWord_total (hi : i < 6) (hlen : w.length < 20) (hw : nul ∉ w) :
    ∃ v, (fetch arguments i).bind (fun a => (strcpy a w).bind (store arguments i)) = some v ∧
      ∀ j, (fetch v j).bind text = if i = j then some w else (fetch arguments j).bind text := by
  obtain ⟨a, ha⟩ := fetch_total arguments i hi
  obtain ⟨c, hc, htext⟩ := strcpy_eq a w hw hlen
  refine ⟨arguments.setIfInBounds i c, ?_, fun j => ?_⟩
  · rw [ha, Option.bind_some, hc, Option.bind_some, store_of_lt arguments i c hi]
  · rw [fetch_setIfInBounds arguments i j c hi]
    split
    · rw [Option.bind_some, htext]
    · rfl

end Words

theorem copyWords_isSome_iff (ws : List (List Char)) (i : Nat)
    (arguments : Vector (Vector Char 20) 6) (hi : i ≤ 6) :
    (copyWords ws i arguments).isSome ↔ i + ws.length ≤ 6 ∧ ∀ w ∈ ws, w.length < 20 := by
  induction ws generalizing i arguments with
  | nil => exact iff_of_true rfl ⟨hi, fun w hw => absurd hw List.not_mem_nil⟩
  | cons w ws ih =>
    rw [copyWords, List.length_cons, List.forall_mem_cons]
    have hfirst := copyWord_isSome_iff arguments i w
    cases hcopy : (fetch arguments i).bind
        (fun a => (strcpy a w).bind (store arguments i)) with
    | none =>
      rw [hcopy] at hfirst
      refine iff_of_false (fun h => Bool.noConfusion h) (fun h => ?_)
      exact Bool.noConfusion (hfirst.mpr ⟨by omega, h.2.1⟩)
    | some v =>
      rw [hcopy] at hfirst
      obtain ⟨hlt, hlen⟩ := hfirst.mp rfl
      rw [Option.bind_some, ih (i + 1) v hlt, and_iff_right hlen, Nat.add_assoc,
        Nat.add_comm 1]

theorem copyWords_total (ws : List (List Char)) (i : Nat) (arguments : Vector (Vector Char 20) 6)
    (hcount : i + ws.length ≤ 6) (hlen : ∀ w ∈ ws, w.length < 20) (hnul : ∀ w ∈ ws, nul ∉ w) :
    ∃ v, copyWords ws i arguments = some v ∧ ∀ j, (fetch v j).bind text =
      if i ≤ j ∧ j < i + ws.length then ws[j - i]? else (fetch arguments j).bind text := by
  induction ws generalizing i arguments with
  | nil =>
    refine ⟨arguments, rfl, fun j => ?_⟩
    rw [List.length_nil, if_neg (by omega)]
  | cons w ws ih =>
    rw [List.length_cons] at hcount
    obtain ⟨c, hc, hfirst⟩ := copyWord_total arguments i w (by omega)
      (hlen w List.mem_cons_self) (hnul w List.mem_cons_self)
    obtain ⟨v, hv, hrest⟩ := ih (i + 1) c (by omega)
      (fun x hx => hlen x (List.mem_cons_of_mem w hx))
      (fun x hx => hnul x (List.mem_cons_of_mem w hx))
    refine ⟨v, by rw [copyWords, hc, Option.bind_some, hv], fun j => ?_⟩
    rw [hrest, hfirst, List.length_cons]
    rcases Nat.lt_trichotomy i j with hlt | rfl | hgt
    · have hsub : j - i = (j - (i + 1)) + 1 := by omega
      rw [if_neg hlt.ne, hsub, List.getElem?_cons_succ]
      exact if_congr (by omega) rfl rfl
    · rw [if_neg (by omega), if_pos rfl, if_pos (by omega), Nat.sub_self,
        List.getElem?_cons_zero]
    · rw [if_neg (by omega), if_neg hgt.ne', if_neg (by omega)]

theorem argument_eq {old new : Vector (Vector Char 20) 6} {line : List Char}
    (hold : ∀ a ∈ old.toList, text a = some [])
    (hnew : ∀ j, (fetch new j).bind text = if 0 ≤ j ∧ j < 0 + (words line).length then
      (words line)[j - 0]? else (fetch old j).bind text) (j : Nat) (hj : j < 6) :
    (fetch new j).bind text = some (word line j) := by
  rw [hnew, word, Nat.sub_zero, Nat.zero_add]
  split
  · next h => rw [List.getElem?_eq_getElem h.2, Option.getD_some]
  · next h =>
      obtain ⟨a, ha⟩ := fetch_total old j hj
      rw [ha, Option.bind_some, hold a (mem_of_fetch ha), List.getElem?_eq_none (by omega),
        Option.getD_none]

/-! ### The commands -/

section Commands

variable {t : Terminal b} {line : List Char}

theorem about_isSome (hargs : ∀ j < 6, t.argument j = some (word line j)) : t.about.isSome := by
  unfold about
  split
  · rw [hargs 1 (by omega)]
    rfl
  · rfl

theorem showKeycode_isSome_iff (keycode : Keycode) :
    ((itoa keycode.toNat 10 (.replicate 5 nul : Vector Char 5)).bind (fun dec =>
      (itoa keycode.toNat 16 (.replicate 5 nul : Vector Char 5)).bind (fun hex =>
        (t.sendString hex).bind (sendString dec)))).isSome ↔ keycode.toNat < 10000 := by
  have hempty : Ended (.replicate 5 nul : Vector Char 5) := ended_replicate (by omega)
  refine (bind_isSome_iff_of (fun dec hdec => ?_)).trans
    (itoa_isSome_iff _ keycode.toNat 10 (by omega) (by omega))
  obtain ⟨hex, hhex⟩ := Option.isSome_iff_exists.mp ((itoa_isSome_iff
    (.replicate 5 nul : Vector Char 5) keycode.toNat 16 (by omega) (by omega)).mpr keycode.isLt)
  rw [hhex, Option.bind_some, sendString_of_ended (hempty.strcpy hhex), Option.bind_some,
    sendString_of_ended (hempty.strcpy hdec)]
  rfl

theorem keycode_isSome_iff (hargs : ∀ j < 6, t.argument j = some (word line j)) :
    t.keycode.isSome ↔ CommandFits b line .keycode := by
  rw [keycode, hargs 1 (by omega), hargs 2 (by omega), hargs 3 (by omega), Option.bind_some,
    Option.bind_some, Option.bind_some]
  split
  · next hall =>
      obtain ⟨hlayer, hrow, hcol⟩ := hall
      cases hkey : b.keymapAt (number (word line 1)) (number (word line 2))
          (number (word line 3)) with
      | none =>
        refine iff_of_false (fun h => Bool.noConfusion h) (fun h => ?_)
        obtain ⟨keycode, heq, -⟩ := h hlayer hrow hcol
        rw [hkey] at heq
        cases heq
      | some keycode =>
        rw [Option.bind_some, showKeycode_isSome_iff]
        refine ⟨fun hlt _ _ _ => ⟨keycode, hkey, hlt⟩, fun h => ?_⟩
        obtain ⟨other, heq, hlt⟩ := h hlayer hrow hcol
        rw [hkey, Option.some.injEq] at heq
        rwa [heq]
  · next hsome =>
      exact iff_of_true rfl (fun hlayer hrow hcol => absurd ⟨hlayer, hrow, hcol⟩ hsome)

theorem keycodeText_length (keycode : Keycode) : (keycodeText keycode).length = 7 := by
  have hdigits : (Nat.toDigits 16 keycode.toNat).length ≤ 4 :=
    (Nat.length_toDigits_le_iff (by omega) (by omega)).mpr keycode.isLt
  rw [keycodeText, List.length_append, List.length_append, List.length_leftpad,
    Nat.max_eq_left hdigits]
  rfl

theorem keymapAt_isSome_iff (layer row col : Nat) :
    (b.keymapAt layer row col).isSome ↔ layer < b.layers ∧ row < b.rows ∧ col < b.cols := by
  unfold TerminalBuild.keymapAt
  split
  · next hin => exact iff_of_true rfl hin
  · next hout => exact iff_of_false (fun h => Bool.noConfusion h) hout

theorem showEntry_isSome_iff (layer r c : Nat) (u : Terminal b) :
    ((b.keymapAt layer r c).bind (fun keycode =>
      (strcpy (.replicate 8 nul : Vector Char 8) (keycodeText keycode)).bind (fun s =>
        u.sendString s))).isSome ↔ layer < b.layers ∧ r < b.rows ∧ c < b.cols := by
  rw [← keymapAt_isSome_iff]
  refine bind_isSome_iff_of (fun keycode _ => ?_)
  obtain ⟨s, hs⟩ := Option.isSome_iff_exists.mp ((strcpy_isSome_iff
    (.replicate 8 nul : Vector Char 8) (keycodeText keycode)).mpr (by
      rw [keycodeText_length]
      omega))
  rw [hs, Option.bind_some, sendString_of_ended ((ended_replicate (by omega)).strcpy hs)]
  rfl

theorem keymap_isSome_iff (hargs : ∀ j < 6, t.argument j = some (word line j)) :
    t.keymap.isSome ↔ CommandFits b line .keymap := by
  rw [keymap, hargs 1 (by omega), Option.bind_some]
  split
  · next hlayer =>
      -- a layer that there is has all its rows and columns
      refine (loop_isSome_iff _ (fun r => ∀ c < b.cols, number (word line 1) < b.layers ∧
        r < b.rows ∧ c < b.cols) b.rows (fun r _ u => loop_isSome_iff _ _ b.cols
          (fun c _ u => showEntry_isSome_iff _ r c u) u) t).trans
            ⟨fun h _ => ?_, fun h r hr c hc => ?_⟩
      · exact (h 0 b.rows_pos 0 b.cols_pos).1
      · exact ⟨h hlayer, hr, hc⟩
  · next hempty => exact iff_of_true rfl (fun hlayer => absurd hlayer hempty)

theorem printCmdBuff_eq_none (t : Terminal b) : t.printCmdBuff = none := by
  have hturn : ∀ i < b.cmdBuffSize, ∀ u : Terminal b,
      ((itoa i 10 (.replicate 1 ' ' : Vector Char 1)).bind (fun tmpChar =>
        (u.sendString tmpChar).bind (fun u =>
          (fetch u.cmdBuffer i).bind (fun line => u.sendString line)))).isSome ↔ False := by
    intro i _ u
    refine iff_of_false (fun h => ?_) id
    have hroom := (strcpy_isSome_iff _ _).mp (Option.isSome_of_isSome_bind h)
    have hdigits : 0 < (Nat.toDigits 10 i).length := Nat.length_toDigits_pos
    omega
  have hall := (loop_isSome_iff _ _ b.cmdBuffSize hturn t).mp
  exact Option.not_isSome_iff_eq_none.mp (fun h => hall h 0 b.cmdBuffSize_pos)

theorem runCommand_isSome_iff (hargs : ∀ j < 6, t.argument j = some (word line j))
    (command : TerminalCommand) : (t.runCommand command).isSome ↔ CommandFits b line command := by
  cases command with
  | about => exact iff_of_true (about_isSome hargs) trivial
  | help => exact iff_of_true rfl trivial
  | keycode => exact keycode_isSome_iff hargs
  | keymap => exact keymap_isSome_iff hargs
  | flushBuffer => exact iff_of_true rfl trivial
  | printBuffer =>
    rw [runCommand, printCmdBuff_eq_none]
    exact iff_of_false (fun h => Bool.noConfusion h) id
  | exit => exact iff_of_true rfl trivial

theorem keycode_eq {u : Terminal b} (h : t.keycode = some u) : u = t := by
  unfold keycode at h
  obtain ⟨layer, -, h⟩ := Option.bind_eq_some_iff.mp h
  obtain ⟨row, -, h⟩ := Option.bind_eq_some_iff.mp h
  obtain ⟨col, -, h⟩ := Option.bind_eq_some_iff.mp h
  split at h
  · obtain ⟨keycode, -, h⟩ := Option.bind_eq_some_iff.mp h
    obtain ⟨dec, -, h⟩ := Option.bind_eq_some_iff.mp h
    obtain ⟨hex, -, h⟩ := Option.bind_eq_some_iff.mp h
    obtain ⟨v, hv, h⟩ := Option.bind_eq_some_iff.mp h
    rw [← ((sendString_eq_some_iff dec v u).mp h).2, ← ((sendString_eq_some_iff hex t v).mp hv).2]
  · exact (Option.some.inj h).symm

theorem keymap_eq {u : Terminal b} (h : t.keymap = some u) : u = t := by
  unfold keymap at h
  obtain ⟨layer, -, h⟩ := Option.bind_eq_some_iff.mp h
  split at h
  · refine loop_invariant _ (fun _ v => v = t) b.rows (fun r _ v w hv hw => ?_) t u rfl h
    refine loop_invariant _ (fun _ v => v = t) b.cols (fun c _ v w hv hw => ?_) v w hv hw
    obtain ⟨keycode, -, hw⟩ := Option.bind_eq_some_iff.mp hw
    obtain ⟨text, -, hw⟩ := Option.bind_eq_some_iff.mp hw
    rw [← ((sendString_eq_some_iff text v w).mp hw).2, hv]
  · exact (Option.some.inj h).symm

theorem about_eq {u : Terminal b} (h : t.about = some u) : u = t := by
  unfold about at h
  split at h
  · obtain ⟨name, -, h⟩ := Option.map_eq_some_iff.mp h
    exact h.symm
  · exact (Option.some.inj h).symm

theorem runCommand_cases {u : Terminal b} {command : TerminalCommand}
    (h : t.runCommand command = some u) : u = t ∨ u = t.flushCmdBuffer ∨ u = t.disableTerminal := by
  cases command with
  | about => exact Or.inl (about_eq h)
  | help => exact Or.inl (Option.some.inj h).symm
  | keycode => exact Or.inl (keycode_eq h)
  | keymap => exact Or.inl (keymap_eq h)
  | flushBuffer => exact Or.inr (Or.inl (Option.some.inj h).symm)
  | printBuffer =>
    rw [runCommand, printCmdBuff_eq_none] at h
    cases h
  | exit => exact Or.inr (Or.inr (Option.some.inj h).symm)

theorem dispatch_keeps {u : Terminal b} {name : List Char} (h : dispatch name t = some u)
    (hbuffer : Ended t.buffer) (hlines : ∀ line ∈ t.cmdBuffer.toList, Ended line) :
    Ended u.buffer ∧ ∀ line ∈ u.cmdBuffer.toList, Ended line := by
  unfold dispatch at h
  split at h
  · rcases runCommand_cases h with rfl | rfl | rfl
    · exact ⟨hbuffer, hlines⟩
    · exact ⟨hbuffer, ended_lines⟩
    · exact ⟨hbuffer, hlines⟩
  · rw [← ((sendString_eq_some_iff t.buffer t u).mp h).2]
    exact ⟨hbuffer, hlines⟩

theorem dispatch_isSome_iff (hargs : ∀ j < 6, t.argument j = some (word line j))
    (hbuffer : Ended t.buffer) (name : List Char) : (dispatch name t).isSome ↔
      ∀ command, findCommand name = some command → CommandFits b line command := by
  unfold dispatch
  cases hfind : findCommand name with
  | none =>
    rw [sendString_of_ended hbuffer]
    exact iff_of_true rfl (fun command h => absurd h.symm (Option.some_ne_none command))
  | some command =>
    refine (runCommand_isSome_iff hargs command).trans ⟨fun h other heq => ?_, fun h => ?_⟩
    · rwa [← Option.some.inj heq]
    · exact h command rfl

end Commands

/-! ### Enter -/

theorem nul_not_mem_words {t : Terminal b} {line : List Char} (hline : text t.buffer = some line) :
    ∀ w ∈ words line, nul ∉ w :=
  fun _ hw hnul => ((text_eq_some_iff _ _).mp hline).1 (mem_words hw hnul)

theorem finish_total (t : Terminal b) (hbuffer : Ended t.buffer)
    (hlines : ∀ line ∈ t.cmdBuffer.toList, Ended line) :
    ∃ u, (if t.enabled then t.clearLine else some t) = some u ∧ Sound u := by
  split
  · exact clearLine_total t hbuffer hlines
  · next hoff => exact ⟨t, rfl, hbuffer, hlines, fun hon => absurd hon hoff⟩

theorem processTerminalCommand_isSome_iff {t : Terminal b} (h : Sound t) (hon : t.enabled) :
    t.processTerminalCommand.isSome ↔ LineFits b t.line := by
  have hline := h.text_buffer
  have hcopy := copyWords_isSome_iff (words t.line) 0 t.arguments (Nat.zero_le 6)
  rw [Nat.zero_add] at hcopy
  rw [processTerminalCommand, hline, Option.bind_some]
  by_cases hroom : (words t.line).length ≤ 6 ∧ ∀ w ∈ words t.line, w.length < 20
  · obtain ⟨arguments, hwords, hnew⟩ := copyWords_total (words t.line) 0 t.arguments
      (by omega) hroom.2 (nul_not_mem_words hline)
    obtain ⟨buffer, hcut, hend, hname⟩ := h.buffer.cut hline
    rw [hwords, Option.bind_some, hcut, Option.bind_some, hname, Option.bind_some]
    refine (bind_isSome_iff_of (fun u hu => ?_)).trans ((dispatch_isSome_iff
      (argument_eq (h.arguments hon) hnew) hend _).trans
        ⟨fun hcommand => ⟨hroom.1, hroom.2, hcommand⟩, fun hfits => hfits.command⟩)
    obtain ⟨hbuffer, hlines⟩ := dispatch_keeps hu hend h.lines
    obtain ⟨v, hv, -⟩ := finish_total u hbuffer hlines
    rw [hv]
    rfl
  · rw [Option.not_isSome_iff_eq_none.mp (mt hcopy.mp hroom)]
    exact iff_of_false (fun hsome => Bool.noConfusion hsome)
      (fun hfits => hroom ⟨hfits.count, hfits.length⟩)

theorem processTerminalCommand_sound {t u : Terminal b} (h : Sound t)
    (hu : t.processTerminalCommand = some u) : Sound u := by
  obtain ⟨buffer, hcut, hend, hname⟩ := h.buffer.cut h.text_buffer
  rw [processTerminalCommand, h.text_buffer, Option.bind_some] at hu
  obtain ⟨arguments, -, hu⟩ := Option.bind_eq_some_iff.mp hu
  rw [hcut, Option.bind_some, hname, Option.bind_some] at hu
  obtain ⟨v, hv, hu⟩ := Option.bind_eq_some_iff.mp hu
  obtain ⟨hbuffer, hlines⟩ := dispatch_keeps hv hend h.lines
  obtain ⟨w, hw, hsound⟩ := finish_total v hbuffer hlines
  cases hu.symm.trans hw
  exact hsound

theorem enter_isSome_iff {t : Terminal b} (h : Sound t) (hon : t.enabled) :
    (t.pushToCmdBuffer.bind (fun t =>
      processTerminalCommand { t with currentCmdBufferPos := 0 })).isSome ↔ LineFits b t.line := by
  obtain ⟨cmdBuffer, hpush, hlines⟩ := pushToCmdBuffer_total h
  rw [hpush, Option.bind_some]
  exact processTerminalCommand_isSome_iff ⟨h.buffer, hlines, h.arguments⟩ hon

theorem enter_sound {t u : Terminal b} (h : Sound t)
    (hu : t.pushToCmdBuffer.bind (fun t =>
      processTerminalCommand { t with currentCmdBufferPos := 0 }) = some u) : Sound u := by
  obtain ⟨cmdBuffer, hpush, hlines⟩ := pushToCmdBuffer_total h
  rw [hpush, Option.bind_some] at hu
  refine processTerminalCommand_sound ?_ hu
  exact ⟨h.buffer, hlines, h.arguments⟩

/-! ### The keys -/

theorem charToAdd_isSome_iff (keycode : Keycode) (mods : Byte) :
    (charToAdd keycode mods).isSome ↔
      (shifted mods ∨ mods = 0 → keycode.toNat < 58) := by
  unfold charToAdd
  split
  · next hshift =>
      rw [fetch_isSome_iff]
      exact ⟨fun h _ => h, fun h => h (Or.inl hshift)⟩
  · next hshift =>
      split
      · next hnone =>
          rw [fetch_isSome_iff]
          exact ⟨fun h _ => h, fun h => h (Or.inr hnone)⟩
      · next hmods => exact iff_of_true rfl (fun h => absurd h (not_or.mpr ⟨hshift, hmods⟩))

theorem table_iff {keycode : Keycode} (hle : keycode ≤ 58) (mods : Byte) :
    (charToAdd keycode mods).isSome ↔ (keycode = 58 → ¬ (shifted mods ∨ mods = 0)) := by
  have hbound : keycode.toNat ≤ 58 := BitVec.le_def.mp hle
  rw [charToAdd_isSome_iff]
  constructor
  · rintro h rfl hmods
    exact absurd (h hmods) (by decide)
  · intro h hmods
    have hne : keycode.toNat ≠ 58 := fun heq => h (BitVec.eq_of_toNat_eq heq) hmods
    omega

theorem addChar_isSome_iff {t : Terminal b} (h : Sound t) (keycode : Keycode) (mods : Byte) :
    (t.addChar keycode mods).isSome ↔ CharFits keycode mods t.line := by
  rw [addChar]
  by_cases hle : keycode ≤ 58
  · have htable := table_iff hle mods
    rw [if_pos hle]
    cases hchar : charToAdd keycode mods with
    | none =>
      rw [hchar] at htable
      exact iff_of_false (fun hsome => Bool.noConfusion hsome)
        (fun hfits => Bool.noConfusion (htable.mpr hfits.table))
    | some c =>
      rw [hchar] at htable
      rw [Option.bind_some]
      by_cases hc : c = nul
      · rw [if_neg (not_not.mpr hc)]
        refine iff_of_true rfl ⟨htable.mp rfl, fun _ hne => absurd ?_ hne⟩
        rw [hchar, hc]
      · have hroom := strcat_isSome_iff h.text_buffer c
        rw [if_pos hc, Option.isSome_map, hroom]
        constructor
        · exact fun hlen => ⟨htable.mp rfl, fun _ _ => by omega⟩
        · intro hfits
          have := hfits.room hle (by rw [hchar]; exact fun heq => hc (Option.some.inj heq))
          omega
  · rw [if_neg hle]
    refine iff_of_true rfl ⟨fun heq => absurd ?_ hle, fun hin => absurd hin hle⟩
    rw [heq]
    exact BitVec.le_refl 58

theorem addChar_sound {t u : Terminal b} (h : Sound t) {keycode : Keycode} {mods : Byte}
    (hu : t.addChar keycode mods = some u) : Sound u := by
  unfold addChar at hu
  split at hu
  · obtain ⟨c, -, hu⟩ := Option.bind_eq_some_iff.mp hu
    split at hu
    · obtain ⟨buffer, hcat, hu⟩ := Option.map_eq_some_iff.mp hu
      rw [← hu]
      exact ⟨h.buffer.strcat hcat, h.lines, h.arguments⟩
    · rwa [← Option.some.inj hu]
  · rwa [← Option.some.inj hu]

theorem charFits_of_silent {keycode : Keycode} {mods : Byte} {line : List Char}
    (h : keycode = kcEnter ∨ keycode = kcEscape ∨ keycode = kcBackspace ∨ 58 < keycode) :
    CharFits keycode mods line := by
  have hlut : keycode = kcEnter ∨ keycode = kcEscape ∨ keycode = kcBackspace →
      charToAdd keycode mods = some nul := by
    rintro (rfl | rfl | rfl) <;>
    · unfold charToAdd
      split_ifs <;> decide
  constructor
  · rintro rfl
    exact absurd h (by decide)
  · intro hle hne
    rcases h with h | h | h | h
    · exact absurd (hlut (Or.inl h)) hne
    · exact absurd (hlut (Or.inr (Or.inl h))) hne
    · exact absurd (hlut (Or.inr (Or.inr h))) hne
    · exact absurd h (BitVec.not_lt.mpr hle)

def Edits (keycode : Keycode) : Prop :=
  keycode = kcEscape ∨ keycode = kcBackspace ∨ (keycode = kcLeft ∨ keycode = kcRight) ∨
    keycode = kcUp ∨ keycode = kcDown

theorem edits_total {t : Terminal b} (h : Sound t) {keycode : Keycode} (hedit : Edits keycode)
    (mods : Byte) : ∃ out, t.processKey keycode mods = some out ∧ Sound out.2 := by
  unfold processKey
  rcases hedit with rfl | rfl | hside | rfl | rfl
  · obtain ⟨u, hu, hsound⟩ := enableTerminal_total h
    refine ⟨(false, u), ?_, hsound⟩
    rw [if_neg (by decide), if_pos rfl, hu, Option.map_some]
  · obtain ⟨out, hout, hsound⟩ := backspace_total h
    refine ⟨out, ?_, hsound⟩
    rw [if_neg (by decide), if_neg (by decide), if_pos rfl, hout]
  · refine ⟨(false, t), ?_, h⟩
    rcases hside with rfl | rfl <;>
      rw [if_neg (by decide), if_neg (by decide), if_neg (by decide), if_pos (by decide)]
  · obtain ⟨u, hu, hsound⟩ := up_total h
    refine ⟨(false, u), ?_, hsound⟩
    rw [if_neg (by decide), if_neg (by decide), if_neg (by decide), if_neg (by decide),
      if_pos rfl, hu, Option.map_some]
  · obtain ⟨u, hu, hsound⟩ := down_total h
    refine ⟨(false, u), ?_, hsound⟩
    rw [if_neg (by decide), if_neg (by decide), if_neg (by decide), if_neg (by decide),
      if_neg (by decide), if_pos rfl, hu, Option.map_some]

theorem Edits.silent {keycode : Keycode} (h : Edits keycode) :
    keycode = kcEnter ∨ keycode = kcEscape ∨ keycode = kcBackspace ∨ 58 < keycode := by
  rcases h with rfl | rfl | (rfl | rfl) | rfl | rfl <;> decide

section

variable {keycode : Keycode} (mods : Byte) (t : Terminal b)

theorem processKey_enter (henter : keycode = kcEnter ∨ keycode = kcKpEnter) :
    t.processKey keycode mods = (t.pushToCmdBuffer.bind (fun t =>
      processTerminalCommand { t with currentCmdBufferPos := 0 })).map (fun t => (false, t)) := by
  rw [processKey, if_pos henter]

theorem processKey_other (henter : ¬ (keycode = kcEnter ∨ keycode = kcKpEnter))
    (hedit : ¬ Edits keycode) :
    t.processKey keycode mods = (t.addChar keycode mods).map (fun t => (true, t)) := by
  simp only [Edits, not_or] at hedit
  obtain ⟨hescape, hbackspace, ⟨hleft, hright⟩, hup, hdown⟩ := hedit
  rw [processKey, if_neg henter, if_neg hescape, if_neg hbackspace,
    if_neg (not_or.mpr ⟨hleft, hright⟩), if_neg hup, if_neg hdown]

end

theorem processKey_isSome_iff {t : Terminal b} (h : Sound t) (hon : t.enabled)
    (keycode : Keycode) (mods : Byte) : (t.processKey keycode mods).isSome ↔
      (keycode = kcEnter ∨ keycode = kcKpEnter → LineFits b t.line) ∧
        CharFits keycode mods t.line := by
  by_cases henter : keycode = kcEnter ∨ keycode = kcKpEnter
  · have hsilent : keycode = kcEnter ∨ keycode = kcEscape ∨ keycode = kcBackspace ∨
        58 < keycode := by
      rcases henter with rfl | rfl <;> decide
    rw [processKey_enter mods t henter, Option.isSome_map, enter_isSome_iff h hon]
    exact ⟨fun hline => ⟨fun _ => hline, charFits_of_silent hsilent⟩, fun hfits => hfits.1 henter⟩
  · by_cases hedit : Edits keycode
    · obtain ⟨out, hout, -⟩ := edits_total h hedit mods
      rw [hout]
      exact iff_of_true rfl ⟨fun hin => absurd hin henter, charFits_of_silent hedit.silent⟩
    · rw [processKey_other mods t henter hedit, Option.isSome_map, addChar_isSome_iff h]
      exact ⟨fun hchar => ⟨fun hin => absurd hin henter, hchar⟩, fun hfits => hfits.2⟩

theorem processKey_sound {t : Terminal b} (h : Sound t) {keycode : Keycode} {mods : Byte}
    {out : Bool × Terminal b} (hout : t.processKey keycode mods = some out) : Sound out.2 := by
  by_cases henter : keycode = kcEnter ∨ keycode = kcKpEnter
  · rw [processKey_enter mods t henter] at hout
    obtain ⟨u, hu, rfl⟩ := Option.map_eq_some_iff.mp hout
    exact enter_sound h hu
  · by_cases hedit : Edits keycode
    · obtain ⟨other, hother, hsound⟩ := edits_total h hedit mods
      cases hout.symm.trans hother
      exact hsound
    · rw [processKey_other mods t henter hedit] at hout
      obtain ⟨u, hu, rfl⟩ := Option.map_eq_some_iff.mp hout
      exact addChar_sound h hu

/-! ### Runs -/

theorem not_basic {keycode : Keycode} (h : keycode = termOn ∨ keycode = termOff) :
    ¬ basicKeycode keycode < 256 := by
  rcases h with rfl | rfl <;> decide

theorem step_sound {t : Terminal b} (h : Sound t) {k : TerminalKey} {u : Terminal b}
    (hu : t.step k = some u) : Sound u := by
  obtain ⟨out, hout, rfl⟩ := Option.map_eq_some_iff.mp hu
  unfold processTerminal at hout
  split_ifs at hout
  · obtain ⟨v, hv, rfl⟩ := Option.map_eq_some_iff.mp hout
    obtain ⟨w, hw, hsound⟩ := enableTerminal_total h
    cases hv.symm.trans hw
    exact hsound
  · rw [← Option.some.inj hout]
    exact disableTerminal_sound t h.buffer h.lines
  · exact processKey_sound h hout
  · rwa [← Option.some.inj hout]
  · rwa [← Option.some.inj hout]

theorem step_isSome_iff {t : Terminal b} (h : Sound t) (k : TerminalKey) :
    (t.step k).isSome ↔ Safe t k := by
  rw [step, Option.isSome_map, processTerminal]
  split_ifs with hon hpressed hoff hbasic
  · obtain ⟨u, hu, -⟩ := enableTerminal_total h
    rw [hu]
    exact iff_of_true rfl (fun _ _ hin => absurd hin (not_basic (Or.inl hon.1)))
  · exact iff_of_true rfl (fun _ _ hin => absurd hin (not_basic (Or.inr hoff)))
  · rw [processKey_isSome_iff h hpressed.1]
    exact ⟨fun hfits _ _ _ => hfits, fun hsafe => hsafe hpressed.1 hpressed.2 hbasic⟩
  · exact iff_of_true rfl (fun _ _ hin => absurd hin hbasic)
  · exact iff_of_true rfl (fun henabled hp _ => absurd ⟨henabled, hp⟩ hpressed)

/-- The terminal stays in bounds exactly if every character has its place in the table and on
    the line, and every line that is entered has room for its words, and a command that does. -/
theorem terminal_in_bounds_iff (b : TerminalBuild) (keys : List TerminalKey) :
    (keys.foldlM step (init b)).isSome ↔ AlongTo step Safe (init b) keys :=
  foldlM_isSome_iff step Safe Sound (fun _ _ _ hs hstep => step_sound hs hstep)
    (fun _ k hs => step_isSome_iff hs k) keys (init b) init_sound

/-- F1 is read behind the end of the table. -/
theorem terminal_out_of_bounds :
    ¬ ([⟨termOn, true, 0⟩, ⟨0x3A, true, 0⟩].foldlM step (init
      { cmdBuffSize := 5, cmdBuffSize_pos := Nat.succ_pos 4, layers := 1, rows := 1, cols := 1,
        rows_pos := Nat.succ_pos 0, cols_pos := Nat.succ_pos 0, keymaps := fun _ _ _ => kcA,
        help := false })).isSome := by
  decide +kernel

end Terminal

end K530
