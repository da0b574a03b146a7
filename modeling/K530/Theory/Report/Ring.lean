import K530.Core.Report
import K530.Lib.LayOut

/-!
# Keys with Holes Between Them

In the ring the keys lie from the head on, in the order in which they were added.
There may be holes between them, but not after the last, and everything else is
zero. So the ring is a list with holes laid out, and the operations are those on
the list: a key that is added goes to its end, unless it is there, and a key that
is taken out leaves a hole, or the holes before it at the end go with it.

Closing the holes, when the window has come to be the whole ring, keeps the order
and leaves room at the end. When there are none to close the first key is written
over.

## Main definitions

* `keysIn`: The keys of a list with holes.

## Theorems

* `shift_turns`, `lowerTail_spec`: The loops of the two operations.
* `LaysOut.addKeyByte`, `LaysOut.delKeyByte`: The operations.
-/

namespace K530

open Ring

/-! ### Lists with holes -/

def keysIn (xs : List Byte) : List Byte := xs.filter (fun x => x ≠ 0)

theorem keysIn_append (xs ys : List Byte) : keysIn (xs ++ ys) = keysIn xs ++ keysIn ys :=
  List.filter_append ..

theorem keysIn_hole (xs : List Byte) : keysIn (0 :: xs) = keysIn xs := rfl

theorem keysIn_cons (x : Byte) (xs : List Byte) (h : x ≠ 0) :
    keysIn (x :: xs) = x :: keysIn xs := by
  unfold keysIn
  rw [List.filter_cons, if_pos (decide_eq_true h)]

theorem mem_keysIn (xs : List Byte) (x : Byte) : x ∈ keysIn xs ↔ x ∈ xs ∧ x ≠ 0 := by
  unfold keysIn
  rw [List.mem_filter, decide_eq_true_iff]

theorem keysIn_self (xs : List Byte) (h : 0 ∉ xs) : keysIn xs = xs := by
  unfold keysIn
  rw [List.filter_eq_self]
  intro x hx
  exact decide_eq_true (fun hzero => h (hzero ▸ hx))

theorem keysIn_keysIn (xs : List Byte) : keysIn (keysIn xs) = keysIn xs :=
  keysIn_self _ (fun hzero => ((mem_keysIn _ _).mp hzero).2 rfl)

theorem keysIn_ne_nil (xs : List Byte) (hlast : ∀ x ∈ xs.getLast?, x ≠ 0) (h : xs ≠ []) :
    keysIn xs ≠ [] := by
  have hmem := List.getLast_mem h
  refine List.ne_nil_of_mem ((mem_keysIn xs _).mpr ⟨hmem, hlast _ ?_⟩)
  exact List.getLast?_eq_getLast_of_ne_nil h

theorem keysIn_rdropWhile (xs : List Byte) :
    keysIn (xs.rdropWhile (fun x => x == 0)) = keysIn xs := by
  induction xs using List.reverseRecOn with
  | nil => rfl
  | append_singleton xs a ih =>
    by_cases ha : (a == 0) = true
    · rw [List.rdropWhile_concat_pos (fun x => x == 0) xs a ha, ih, keysIn_append,
        beq_iff_eq.mp ha]
      exact (List.append_nil _).symm
    · rw [List.rdropWhile_concat_neg (fun x => x == 0) xs a ha]

variable (before after : List Byte)

theorem keysIn_erase (code : Byte) (hcode : code ≠ 0) (hbefore : code ∉ before) :
    keysIn (before ++ 0 :: after) = (keysIn (before ++ code :: after)).erase code := by
  have hnot : code ∉ keysIn before := fun h => hbefore ((mem_keysIn _ _).mp h).1
  rw [keysIn_append, keysIn_append, keysIn_hole, keysIn_cons _ _ hcode,
    List.erase_append_right _ hnot, List.erase_cons_head]

theorem idxOf_first (x : Byte) (hbefore : x ∉ before) :
    (before ++ x :: after).idxOf x = before.length := by
  rw [List.idxOf_append, if_neg hbefore, List.idxOf_cons_self, Nat.zero_add]

namespace RingReport

/-! ### The ring -/

structure LaysOut (r : RingReport) (xs : List Byte) : Prop where
  keys : r.keys = layOut 0 r.head xs
  tail : r.tail = r.head + Fin.ofNat 6 xs.length
  length_le : xs.length ≤ 6
  count : r.count = BitVec.ofNat 8 (keysIn xs).length
  last : ∀ x ∈ xs.getLast?, x ≠ 0

theorem ringLoop_add (first : Fin 6) (k : Nat) (hpos : 0 < k) (hle : k ≤ 6) :
    ringLoop first (first + Fin.ofNat 6 k) = walk k first := by
  unfold ringLoop
  rcases Nat.lt_or_eq_of_le hle with hlt | rfl
  · have hval := add_sub_val first k hlt
    have hne : first + Fin.ofNat 6 k ≠ first := by
      intro heq
      rw [heq, sub_self] at hval
      exact absurd hval (by simp; omega)
    rw [if_neg hne, hval]
  · have hround : first + Fin.ofNat 6 6 = first := add_zero first
    rw [hround, if_pos rfl]

variable {r : RingReport} {xs : List Byte}

theorem LaysOut.keysIn_length_le (h : r.LaysOut xs) : (keysIn xs).length ≤ 6 :=
  Nat.le_trans (List.length_filter_le ..) h.length_le

theorem LaysOut.count_toNat (h : r.LaysOut xs) : r.count.toNat = (keysIn xs).length := by
  have hle := h.keysIn_length_le
  rw [h.count, BitVec.toNat_ofNat]
  exact Nat.mod_eq_of_lt (by omega)

theorem LaysOut.count_zero_iff (h : r.LaysOut xs) : r.count = 0 ↔ xs = [] := by
  have hcount := h.count_toNat
  constructor
  · intro hzero
    by_contra hne
    -- What is last is not a hole, so a list with something in it has a key.
    have hpos := List.length_pos_of_ne_nil (keysIn_ne_nil xs h.last hne)
    rw [hzero] at hcount
    exact absurd hcount (by simp; omega)
  · rintro rfl
    rw [h.count]
    rfl

theorem LaysOut.tail_eq_head (h : r.LaysOut xs) (hfull : xs.length = 6) : r.tail = r.head := by
  rw [h.tail, hfull]
  exact add_zero r.head

theorem LaysOut.loop_eq (h : r.LaysOut xs) (hne : xs ≠ []) :
    ringLoop r.head r.tail = walk xs.length r.head := by
  rw [h.tail]
  exact ringLoop_add r.head xs.length (List.length_pos_of_ne_nil hne) h.length_le

theorem LaysOut.find?_eq (h : r.LaysOut xs) (hne : xs ≠ []) (code : Byte) :
    (ringLoop r.head r.tail).find? (fun i => r.keys i == code) =
      if code ∈ xs then some (r.head + Fin.ofNat 6 (xs.idxOf code)) else none := by
  rw [h.loop_eq hne, h.keys]
  exact find?_walk 0 r.head xs h.length_le code

theorem LaysOut.any_eq (h : r.LaysOut xs) (hne : xs ≠ []) (code : Byte) :
    (ringLoop r.head r.tail).any (fun i => r.keys i == code) = decide (code ∈ xs) := by
  rw [Bool.eq_iff_iff, List.any_eq_true, decide_eq_true_iff, ← List.find?_isSome, h.find?_eq hne]
  by_cases hcode : code ∈ xs
  · rw [if_pos hcode]
    exact iff_of_true rfl hcode
  · rw [if_neg hcode]
    exact iff_of_false Bool.false_ne_true hcode

theorem LaysOut.mem_iff (h : r.LaysOut xs) (code : Byte) (hcode : code ≠ 0) :
    (∃ i, r.keys i = code) ↔ code ∈ keysIn xs := by
  have hmap := map_walk_layOut (0 : Byte) r.head xs h.length_le
  rw [mem_keysIn, and_iff_left hcode, h.keys]
  constructor
  · rintro ⟨i, hi⟩
    unfold layOut at hi
    by_cases hlt : (i - r.head).val < xs.length
    · rw [List.getD_eq_getElem _ _ hlt] at hi
      exact hi ▸ List.getElem_mem hlt
    · -- Beyond the list there are only holes.
      rw [List.getD_eq_default _ _ (by omega)] at hi
      exact absurd hi.symm hcode
  · intro hmem
    rw [← hmap] at hmem
    obtain ⟨i, _, hi⟩ := List.mem_map.mp hmem
    exact ⟨i, hi⟩

/-! ### Adding a key -/

theorem LaysOut.addToTail (h : r.LaysOut xs) (hroom : xs.length < 6) (code : Byte)
    (hcode : code ≠ 0) : (r.addToTail code).LaysOut (xs ++ [code]) := by
  unfold RingReport.addToTail
  refine ⟨?_, ?_, ?_, ?_, ?_⟩
  · dsimp only
    rw [h.tail, h.keys]
    exact layOut_concat 0 r.head xs code hroom
  · dsimp only
    rw [h.tail, List.length_append, List.length_singleton, ofNat_add, add_assoc]
    rfl
  · rw [List.length_append, List.length_singleton]
    omega
  · dsimp only
    rw [h.count, keysIn_append, keysIn_cons _ _ hcode, List.length_append]
    exact (BitVec.ofNat_add ..).symm
  · rw [List.getLast?_concat]
    intro x hx
    rw [Option.mem_some_iff] at hx
    exact hx ▸ hcode

theorem LaysOut.pop {x : Byte} (h : r.LaysOut (x :: xs)) (hfull : xs.length + 1 = 6)
    (hholes : 0 ∉ x :: xs) (code : Byte) (hcode : code ≠ 0) :
    (RingReport.addToTail { r with head := r.head + 1, count := r.count - 1 } code).LaysOut
      (xs ++ [code]) := by
  -- The place written is the one the oldest key was in.
  have hround : r.tail = r.head := h.tail_eq_head hfull
  unfold RingReport.addToTail
  refine ⟨?_, ?_, ?_, ?_, ?_⟩
  · dsimp only
    rw [hround, h.keys]
    exact layOut_rotate 0 r.head x code xs hfull
  · dsimp only
    rw [hround, List.length_append, List.length_singleton, hfull]
    exact (add_zero _).symm
  · rw [List.length_append, List.length_singleton, hfull]
  · -- One key goes and one comes, so the count is what it was.
    have hx : x ≠ 0 := fun hzero => hholes (hzero ▸ List.mem_cons_self)
    have hsame : r.count - 1 + 1 = r.count := BitVec.sub_add_cancel ..
    dsimp only
    rw [hsame, h.count, keysIn_append, keysIn_cons _ _ hx, keysIn_cons _ _ hcode,
      List.length_append]
    rfl
  · rw [List.getLast?_concat]
    intro y hy
    rw [Option.mem_some_iff] at hy
    exact hy ▸ hcode

theorem replicate_append_hole (k : Nat) (xs : List Byte) :
    List.replicate k 0 ++ 0 :: xs = 0 :: (List.replicate k 0 ++ xs) := by
  rw [List.append_cons, ← List.replicate_succ', List.replicate_succ, List.cons_append]

theorem Shift.turn_key (s : Shift) (i : Fin 6) (x : Byte) (h : s.keys i = x) (hx : x ≠ 0) :
    s.turn i = { s with
      keys := Function.update (Function.update s.keys s.empty x) i 0,
      empty := s.empty + 1 } := by
  subst h
  exact if_pos hx

theorem Shift.turn_hole (s : Shift) (i : Fin 6) (h : s.keys i = 0) :
    s.turn i = { s with offset := s.offset + 1 } :=
  if_neg (not_not_intro h)

theorem set_move (k : Nat) (x : Byte) :
    ((before ++ List.replicate (k + 1) 0 ++ x :: after).set before.length x).set
        (before.length + (k + 1)) 0 =
      (before ++ [x]) ++ List.replicate (k + 1) 0 ++ after := by
  have hback : before.length + (k + 1) - before.length = k + 1 := by omega
  rw [List.append_assoc, List.set_append_right _ _ (Nat.le_refl _), Nat.sub_self,
    List.replicate_succ, List.cons_append, List.set_cons_zero,
    List.set_append_right _ _ (by omega), hback, List.set_cons_succ,
    List.set_append_right _ _ (by simp), List.length_replicate, Nat.sub_self, List.set_cons_zero,
    replicate_append_hole]
  simp

variable (head : Fin 6)

theorem layOut_behind (before after : List Byte) (k : Nat) (x : Byte)
    (hlength : before.length + (k + 1) < 6) :
    layOut 0 head (before ++ List.replicate (k + 1) 0 ++ x :: after)
      (head + Fin.ofNat 6 (before.length + (k + 1))) = x := by
  rw [layOut_add 0 head _ _ hlength, List.getD_append_right _ _ _ _ (by simp)]
  simp

theorem shift_turns (after : List Byte) :
    ∀ (before : List Byte) (k : Nat), before.length + (k + 1) + after.length = 6 →
      (walk after.length (head + Fin.ofNat 6 (before.length + (k + 1)))).foldl Shift.turn
          { keys := layOut 0 head (before ++ List.replicate (k + 1) 0 ++ after),
            empty := head + Fin.ofNat 6 before.length, offset := k + 1 } =
        { keys := layOut 0 head (before ++ keysIn after),
          empty := head + Fin.ofNat 6 (before ++ keysIn after).length,
          offset := 6 - (before ++ keysIn after).length } := by
  induction after with
  | nil =>
    intro before k hlength
    have hoffset : 6 - before.length = k + 1 := by
      rw [List.length_nil] at hlength
      omega
    rw [List.append_nil, layOut_pad, show keysIn [] = [] from rfl, List.append_nil, hoffset]
    rfl
  | cons x after ih =>
    intro before k hlength
    rw [List.length_cons] at hlength
    have hread := layOut_behind head before after k x (by omega)
    have hnext : head + Fin.ofNat 6 (before.length + (k + 1)) + 1 =
        head + Fin.ofNat 6 (before.length + (k + 1) + 1) := by
      rw [ofNat_add _ 1, add_assoc]
      rfl
    rw [List.length_cons, walk, List.foldl_cons, hnext]
    by_cases hx : x ≠ 0
    · -- The key goes to the first hole, and leaves one where it was.
      have hrest := ih (before ++ [x]) k (by simp; omega)
      rw [List.length_append, List.length_singleton] at hrest
      rw [Shift.turn_key _ _ x hread hx]
      dsimp only
      rw [layOut_set 0 head _ _ _ (by simp) (by simp; omega),
        layOut_set 0 head _ _ _ (by simp) (by simp; omega), set_move]
      rw [keysIn_cons _ _ hx, List.append_cons before x (keysIn after), ← hrest]
      rw [show before.length + (k + 1) + 1 = before.length + 1 + (k + 1) by omega,
        ofNat_add before.length 1, add_assoc]
      rfl
    · -- One more hole to be closed by the keys after it.
      rw [not_not] at hx
      subst hx
      have hrest := ih before (k + 1) (by omega)
      rw [Shift.turn_hole _ _ hread, keysIn_hole, ← hrest]
      rw [show before.length + (k + 1 + 1) = before.length + (k + 1) + 1 by omega,
        List.append_assoc, replicate_append_hole, List.replicate_succ (n := k + 1)]
      simp

theorem keysIn_around (hbefore : 0 ∉ before) :
    keysIn (before ++ 0 :: after) = before ++ keysIn after := by
  rw [keysIn_append, keysIn_hole, keysIn_self before hbefore]

variable {before after : List Byte}

theorem LaysOut.loop_behind (h : r.LaysOut (before ++ 0 :: after))
    (hfull : before.length + (after.length + 1) = 6) (hafter : after ≠ []) :
    ringLoop (r.head + Fin.ofNat 6 before.length + 1) r.tail =
      walk after.length (r.head + Fin.ofNat 6 (before.length + (0 + 1))) := by
  have hround : r.tail = r.head := h.tail_eq_head (by
    rw [List.length_append, List.length_cons]
    exact hfull)
  have hfirst : r.head + Fin.ofNat 6 before.length + 1 =
      r.head + Fin.ofNat 6 (before.length + (0 + 1)) := by
    rw [ofNat_add before.length, add_assoc]
    rfl
  have hstop : r.tail =
      r.head + Fin.ofNat 6 (before.length + (0 + 1)) + Fin.ofNat 6 after.length := by
    rw [add_assoc, ← ofNat_add, hround,
      show before.length + (0 + 1) + after.length = 6 by omega]
    exact (add_zero r.head).symm
  rw [hfirst, hstop]
  exact ringLoop_add _ after.length (List.length_pos_of_ne_nil hafter) (by omega)

theorem LaysOut.leftShift (h : r.LaysOut (before ++ 0 :: after))
    (hfull : before.length + (after.length + 1) = 6) (hbefore : 0 ∉ before) :
    (r.leftShift (r.head + Fin.ofNat 6 before.length)).LaysOut (before ++ keysIn after) := by
  -- What is last is a key, so the hole is not.
  have hafter : after ≠ [] := by
    rintro rfl
    exact h.last 0 (by simp) rfl
  have hkeys := keysIn_around before after hbefore
  have hlength : (before ++ keysIn after).length ≤ 6 := hkeys ▸ h.keysIn_length_le
  have hround : r.tail = r.head := h.tail_eq_head (by
    rw [List.length_append, List.length_cons]
    exact hfull)
  have hhead : r.keys = layOut 0 r.head (before ++ List.replicate (0 + 1) 0 ++ after) := by
    rw [h.keys]
    simp
  unfold RingReport.leftShift
  rw [h.loop_behind hfull hafter, hhead, shift_turns r.head after before 0 (by omega)]
  refine ⟨rfl, ?_, hlength, ?_, ?_⟩
  · -- As many holes as the offset counts are taken off a whole round.
    dsimp only
    rw [hround, show r.head.val + 6 - (6 - (before ++ keysIn after).length) =
      r.head.val + (before ++ keysIn after).length by omega, ofNat_add]
    congr 1
    exact Fin.ext (Nat.mod_eq_of_lt r.head.isLt)
  · dsimp only
    rw [h.count, hkeys, keysIn_append, keysIn_self before hbefore]
    rw [keysIn_keysIn]
  · intro x hx
    have hmem := List.mem_of_getLast? hx
    rcases List.mem_append.mp hmem with hx' | hx'
    · exact fun hzero => hbefore (hzero ▸ hx')
    · exact ((mem_keysIn _ _).mp hx').2

def enqueue (queue : List Byte) (code : Byte) : List Byte :=
  if queue.contains code then queue
  else (if queue.length = 6 then queue.tail else queue) ++ [code]

theorem enqueue_of_mem {queue : List Byte} {code : Byte} (h : code ∈ queue) :
    enqueue queue code = queue :=
  if_pos (List.contains_iff_mem.mpr h)

theorem enqueue_of_not_mem {queue : List Byte} {code : Byte} (h : code ∉ queue) :
    enqueue queue code = (if queue.length = 6 then queue.tail else queue) ++ [code] :=
  if_neg (fun hin => h (List.contains_iff_mem.mp hin))

theorem keysIn_length_le_length (xs : List Byte) : (keysIn xs).length ≤ xs.length :=
  List.length_filter_le ..

theorem LaysOut.tail_ne_head (h : r.LaysOut xs) (hne : xs ≠ []) (hroom : xs.length < 6) :
    r.tail ≠ r.head := by
  intro heq
  have hval := add_sub_val r.head xs.length hroom
  rw [← h.tail, heq, sub_self] at hval
  exact hne (List.eq_nil_of_length_eq_zero hval.symm)

theorem LaysOut.addToFull (h : r.LaysOut xs) (hfull : xs.length = 6) (code : Byte)
    (hcode : code ≠ 0) :
    ∃ ys, (match (ringLoop r.head r.tail).find? (fun i => r.keys i == 0) with
        | none => RingReport.addToTail { r with head := r.head + 1, count := r.count - 1 } code
        | some hole => (r.leftShift hole).addToTail code).LaysOut ys ∧
      keysIn ys = (if (keysIn xs).length = 6 then (keysIn xs).tail else keysIn xs) ++ [code] := by
  have hone : keysIn [code] = [code] := keysIn_cons code [] hcode
  have hne : xs ≠ [] := by
    rintro rfl
    exact absurd hfull (by decide)
  rw [h.find?_eq hne]
  by_cases hhole : 0 ∈ xs
  · -- Closing the holes leaves room, so that no key has to give way.
    obtain ⟨before, after, rfl, hbefore⟩ := List.eq_append_cons_of_mem hhole
    rw [List.length_append, List.length_cons] at hfull
    have hkeys := keysIn_around before after hbefore
    have hroom : (before ++ keysIn after).length < 6 := by
      have hle := keysIn_length_le_length after
      rw [List.length_append]
      omega
    rw [if_pos hhole, idxOf_first before after 0 hbefore, hkeys, if_neg (Nat.ne_of_lt hroom)]
    refine ⟨_, (h.leftShift hfull hbefore).addToTail hroom code hcode, ?_⟩
    rw [← hkeys, keysIn_append, hone, keysIn_keysIn]
  · obtain ⟨x, rest, rfl⟩ := List.exists_cons_of_ne_nil hne
    have hrest : 0 ∉ rest := fun hc => hhole (List.mem_cons_of_mem x hc)
    rw [if_neg hhole, keysIn_self _ hhole, if_pos hfull]
    exact ⟨rest ++ [code], h.pop hfull hhole code hcode,
      by rw [keysIn_append, hone, keysIn_self rest hrest]; rfl⟩

theorem LaysOut.addKeyByte (h : r.LaysOut xs) (code : Byte) (hcode : code ≠ 0) :
    ∃ ys, (r.addKeyByte code).LaysOut ys ∧ keysIn ys = enqueue (keysIn xs) code := by
  have hmem : code ∈ keysIn xs ↔ code ∈ xs := by rw [mem_keysIn, and_iff_left hcode]
  have hone : keysIn [code] = [code] := keysIn_cons code [] hcode
  unfold RingReport.addKeyByte
  by_cases hne : xs = []
  · subst hne
    rw [if_neg (not_not_intro (h.count_zero_iff.mpr rfl)),
      enqueue_of_not_mem (fun hc => by simp [keysIn] at hc)]
    exact ⟨[code], h.addToTail (by decide) code hcode, hone⟩
  rw [if_pos (fun hzero => hne (h.count_zero_iff.mp hzero)), h.any_eq hne]
  by_cases hin : code ∈ xs
  · rw [if_pos (decide_eq_true hin), enqueue_of_mem (hmem.mpr hin)]
    exact ⟨xs, h, rfl⟩
  rw [if_neg (fun hc => hin (of_decide_eq_true hc)),
    enqueue_of_not_mem (fun hc => hin (hmem.mp hc))]
  rcases Nat.lt_or_eq_of_le h.length_le with hroom | hfull
  · -- There is room after the last key, whether or not there are holes.
    have hlt : (keysIn xs).length ≠ 6 :=
      Nat.ne_of_lt (Nat.lt_of_le_of_lt (keysIn_length_le_length xs) hroom)
    rw [if_neg (h.tail_ne_head hne hroom), if_neg hlt]
    exact ⟨xs ++ [code], h.addToTail hroom code hcode, by rw [keysIn_append, hone]⟩
  · rw [if_pos (h.tail_eq_head hfull)]
    exact h.addToFull hfull code hcode

/-! ### Taking a key out -/

theorem add_succ_sub_one (k : Nat) : head + Fin.ofNat 6 (k + 1) - 1 = head + Fin.ofNat 6 k := by
  rw [ofNat_add, ← add_assoc]
  exact add_sub_cancel_right ..

theorem layOut_pad_one (xs : List Byte) : layOut 0 head (xs ++ [0]) = layOut 0 head xs :=
  layOut_pad 0 head xs 1

theorem rdropWhile_last (xs : List Byte) :
    ∀ x ∈ (xs.rdropWhile (fun x => x == 0)).getLast?, x ≠ 0 := by
  intro x hx
  have hne : xs.rdropWhile (fun x => x == 0) ≠ [] := by
    intro hnil
    rw [hnil] at hx
    simp at hx
  have hlast := List.rdropWhile_last_not (fun x : Byte => x == 0) xs hne
  rw [List.getLast?_eq_getLast_of_ne_nil hne, Option.mem_some_iff] at hx
  rw [hx] at hlast
  simpa using hlast

theorem layOut_keyless (xs : List Byte) (h : keysIn xs = []) : layOut 0 head xs = fun _ => 0 := by
  have hnil : xs.rdropWhile (fun x => x == 0) = [] := by
    by_contra hne
    exact keysIn_ne_nil _ (rdropWhile_last xs) hne ((keysIn_rdropWhile xs).trans h)
  rw [← layOut_rdropWhile, hnil]
  rfl

theorem lowerTail_spec (xs : List Byte) :
    ∀ turns, xs.length < turns → xs.length < 6 → keysIn xs ≠ [] →
      lowerTail (layOut 0 head xs) head turns (head + Fin.ofNat 6 (xs.length + 1)) =
        head + Fin.ofNat 6 (xs.rdropWhile (fun x => x == 0)).length := by
  induction xs using List.reverseRecOn with
  | nil => exact fun _ _ _ hkeys => absurd rfl hkeys
  | append_singleton xs a ih =>
    intro turns hturns hlength hkeys
    rw [List.length_append, List.length_singleton] at hturns hlength
    obtain ⟨turns, rfl⟩ := Nat.exists_eq_succ_of_ne_zero (Nat.ne_of_gt (Nat.zero_lt_of_lt hturns))
    -- What the loop reads is the last of the list, one before the tail.
    have hread : layOut 0 head (xs ++ [a]) (head + Fin.ofNat 6 xs.length) = a := by
      rw [layOut_add 0 head _ _ (by omega), List.getD_append_right _ _ _ _ (Nat.le_refl _),
        Nat.sub_self]
      rfl
    rw [List.length_append, List.length_singleton, lowerTail, add_succ_sub_one, add_succ_sub_one,
      hread]
    by_cases ha : a = 0
    · subst ha
      have hne : head + Fin.ofNat 6 (xs.length + 1) ≠ head := by
        -- The tail is not back at the head, since there are keys left before it.
        intro heq
        have hval := add_sub_val head (xs.length + 1) (by omega)
        rw [heq, sub_self] at hval
        exact absurd hval (by simp)
      rw [keysIn_append, show keysIn [0] = [] from rfl, List.append_nil] at hkeys
      rw [if_neg (not_not_intro rfl), if_neg hne, layOut_pad_one,
        ih turns (by omega) (by omega) hkeys,
        List.rdropWhile_concat_pos (fun x => x == 0) xs 0 rfl]
    · rw [if_pos ha, List.rdropWhile_concat_neg (fun x => x == 0) xs a (by simpa using ha),
        List.length_append, List.length_singleton]

theorem LaysOut.takeOut {code : Byte} (h : r.LaysOut (before ++ code :: after)) (hcode : code ≠ 0)
    (hbefore : code ∉ before) :
    r.takeOut (r.head + Fin.ofNat 6 before.length) =
      if keysIn (before ++ 0 :: after) = [] then RingReport.empty
      else { r with
        keys := layOut 0 r.head (before ++ 0 :: after),
        count := BitVec.ofNat 8 (keysIn (before ++ 0 :: after)).length } := by
  have hmem : code ∈ keysIn (before ++ code :: after) :=
    (mem_keysIn _ _).mpr ⟨by simp, hcode⟩
  have hle := h.keysIn_length_le
  have hpos := List.length_pos_of_mem hmem
  have herase : (keysIn (before ++ 0 :: after)).length =
      (keysIn (before ++ code :: after)).length - 1 := by
    rw [keysIn_erase before after code hcode hbefore, List.length_erase_of_mem hmem]
  have hkeys : Function.update r.keys (r.head + Fin.ofNat 6 before.length) 0 =
      layOut 0 r.head (before ++ 0 :: after) := by
    rw [h.keys, layOut_set 0 r.head _ _ _ (by simp) h.length_le,
      List.set_append_right _ _ (Nat.le_refl _), Nat.sub_self, List.set_cons_zero]
  have hcount : r.count - 1 = BitVec.ofNat 8 (keysIn (before ++ 0 :: after)).length := by
    have hone : (1 : BitVec 8).toNat = 1 := rfl
    apply BitVec.eq_of_toNat_eq
    rw [herase, BitVec.toNat_sub, h.count_toNat, BitVec.toNat_ofNat, hone]
    omega
  unfold RingReport.takeOut
  dsimp only
  rw [hkeys, hcount]
  by_cases hnone : keysIn (before ++ 0 :: after) = []
  · rw [if_pos hnone, hnone, layOut_keyless _ _ hnone]
    rfl
  · have hlength := List.length_pos_of_ne_nil hnone
    have hsome : BitVec.ofNat 8 (keysIn (before ++ 0 :: after)).length ≠ 0 := by
      intro hzero
      have hnat : (keysIn (before ++ 0 :: after)).length % 2 ^ 8 = 0 := by
        rw [← BitVec.toNat_ofNat, hzero]
        rfl
      omega
    rw [if_neg hnone, if_neg hsome]

theorem LaysOut.takeLast {before : List Byte} {code : Byte} (h : r.LaysOut (before ++ [code]))
    (hkeys : keysIn before ≠ []) :
    RingReport.LaysOut { r with
        keys := layOut 0 r.head before,
        count := BitVec.ofNat 8 (keysIn before).length,
        tail := lowerTail (layOut 0 r.head before) r.head 6 r.tail }
      (before.rdropWhile (fun x => x == 0)) := by
  have hlength := h.length_le
  rw [List.length_append, List.length_singleton] at hlength
  have htail : r.tail = r.head + Fin.ofNat 6 (before.length + 1) := by
    rw [h.tail, List.length_append]
    rfl
  rw [htail, lowerTail_spec r.head before 6 (by omega) (by omega) hkeys]
  refine ⟨?_, rfl, ?_, ?_, ?_⟩
  · exact (layOut_rdropWhile 0 r.head before).symm
  · have hle := (List.rdropWhile_prefix (fun x : Byte => x == 0) before).length_le
    omega
  · rw [keysIn_rdropWhile]
  · exact rdropWhile_last before

theorem LaysOut.leaveHole {code : Byte} (h : r.LaysOut (before ++ code :: after))
    (hafter : after ≠ []) :
    RingReport.LaysOut { r with
        keys := layOut 0 r.head (before ++ 0 :: after),
        count := BitVec.ofNat 8 (keysIn (before ++ 0 :: after)).length }
      (before ++ 0 :: after) := by
  refine ⟨rfl, ?_, ?_, rfl, ?_⟩
  · dsimp only
    rw [h.tail, List.length_append, List.length_append]
    rfl
  · have hlength := h.length_le
    rw [List.length_append, List.length_cons] at hlength ⊢
    exact hlength
  · -- The last of the list is one of those after the hole.
    obtain ⟨x, rest, rfl⟩ := List.exists_cons_of_ne_nil hafter
    have hsame := h.last
    rw [List.getLast?_append_cons, List.getLast?_cons_cons] at hsame ⊢
    exact hsame

theorem LaysOut.next_to_tail {code : Byte} (h : r.LaysOut (before ++ code :: after)) :
    r.head + Fin.ofNat 6 before.length = r.tail - 1 ↔ after = [] := by
  have hlength := h.length_le
  rw [List.length_append, List.length_cons] at hlength
  have htail : r.tail - 1 = r.head + Fin.ofNat 6 (before.length + after.length) := by
    rw [h.tail, List.length_append, List.length_cons, ← Nat.add_assoc, add_succ_sub_one]
  rw [htail]
  constructor
  · intro heq
    have hval := (eq_add_iff r.head _ _ (by omega)).mp heq
    rw [add_sub_val r.head _ (by omega)] at hval
    exact List.eq_nil_of_length_eq_zero (by omega)
  · rintro rfl
    rfl

theorem LaysOut.delKeyByte (h : r.LaysOut xs) (code : Byte) (hcode : code ≠ 0) :
    ∃ ys, (r.delKeyByte code).LaysOut ys ∧ keysIn ys = (keysIn xs).erase code := by
  have hmem : code ∈ keysIn xs ↔ code ∈ xs := by rw [mem_keysIn, and_iff_left hcode]
  unfold RingReport.delKeyByte
  by_cases hne : xs = []
  · subst hne
    rw [if_neg (not_not_intro (h.count_zero_iff.mpr rfl))]
    exact ⟨[], h, rfl⟩
  rw [if_pos (fun hzero => hne (h.count_zero_iff.mp hzero)), h.find?_eq hne]
  by_cases hin : code ∈ xs
  · obtain ⟨before, after, rfl, hbefore⟩ := List.eq_append_cons_of_mem hin
    rw [if_pos hin, idxOf_first before after code hbefore,
      ← keysIn_erase before after code hcode hbefore]
    dsimp only
    rw [h.takeOut hcode hbefore]
    unfold followTail
    by_cases hlast : keysIn (before ++ 0 :: after) = []
    · -- The last key, in whichever place it was.
      have hreset : lowerTail RingReport.empty.keys RingReport.empty.head 6
          RingReport.empty.tail = RingReport.empty.tail := by decide
      rw [if_pos hlast, hreset, hlast, ite_self]
      exact ⟨[], ⟨rfl, rfl, by decide, rfl, by simp⟩, rfl⟩
    rw [if_neg hlast]
    -- Only a key next to the tail moves it.
    by_cases hafter : after = []
    · rw [if_pos (h.next_to_tail.mpr hafter)]
      subst hafter
      rw [keysIn_append, show keysIn [0] = [] from rfl, List.append_nil] at hlast ⊢
      rw [layOut_pad_one]
      exact ⟨_, h.takeLast hlast, keysIn_rdropWhile before⟩
    · rw [if_neg (fun heq => hafter (h.next_to_tail.mp heq))]
      exact ⟨_, h.leaveHole hafter, rfl⟩
  · rw [if_neg hin, List.erase_of_not_mem (fun hc => hin (hmem.mp hc))]
    exact ⟨xs, h, rfl⟩

/-! ### What a state holds -/

/-- A key is in the report. -/
def InReport (r : RingReport) (code : Byte) : Prop := ∃ i, r.keys i = code

theorem walk_perm : ∀ head : Fin 6, (walk 6 head).Perm (List.finRange 6) := by decide

theorem LaysOut.perm (h : r.LaysOut xs) :
    (keysIn ((List.finRange 6).map r.keys)).Perm (keysIn xs) := by
  have hpad : layOut 0 r.head (xs ++ List.replicate (6 - xs.length) 0) = r.keys := by
    rw [layOut_pad, h.keys]
  have hlength : (xs ++ List.replicate (6 - xs.length) (0 : Byte)).length = 6 := by
    have hle := h.length_le
    rw [List.length_append, List.length_replicate]
    omega
  have hmap := map_walk_layOut (0 : Byte) r.head (xs ++ List.replicate (6 - xs.length) 0)
    (Nat.le_of_eq hlength)
  have hholes : keysIn (List.replicate (6 - xs.length) 0) = [] := by
    simp [keysIn]
  rw [hpad, hlength] at hmap
  have hkeys : keysIn ((walk 6 r.head).map r.keys) = keysIn xs := by
    rw [hmap, keysIn_append, hholes, List.append_nil]
  rw [← hkeys]
  exact (((walk_perm r.head).symm.map r.keys).filter _)

theorem LaysOut.hasAnykey_eq (h : r.LaysOut xs) : r.hasAnykey = (keysIn xs).length := by
  rw [← h.perm.length_eq]
  unfold hasAnykey keysIn
  rw [← List.countP_eq_length_filter, List.countP_map]
  rfl

theorem LaysOut.counted (h : r.LaysOut xs) : r.count.toInt = r.hasAnykey := by
  have hle := h.keysIn_length_le
  have hnat := h.count_toNat
  rw [BitVec.toInt_eq_toNat_of_lt (by omega), hnat, h.hasAnykey_eq]

theorem LaysOut.distinct (h : r.LaysOut xs) (hnodup : (keysIn xs).Nodup) (i j : Fin 6)
    (hsame : r.keys i = r.keys j) (hi : r.keys i ≠ 0) : i = j := by
  have hplaces : (((List.finRange 6).filter (fun i => r.keys i ≠ 0)).map r.keys).Nodup := by
    -- The places that are not holes have the keys of the list, each once.
    have hmap := h.perm.nodup_iff.mpr hnodup
    unfold keysIn at hmap
    rwa [List.filter_map] at hmap
  refine List.inj_on_of_nodup_map hplaces ?_ ?_ hsame
  · rw [List.mem_filter]
    exact ⟨List.mem_finRange i, decide_eq_true hi⟩
  · rw [List.mem_filter]
    exact ⟨List.mem_finRange j, decide_eq_true (hsame ▸ hi)⟩

theorem LaysOut.inWindow (h : r.LaysOut xs) (i : Fin 6) (hi : r.keys i ≠ 0) :
    i ∈ ringLoop r.head r.tail := by
  have hlt : (i - r.head).val < xs.length := by
    by_contra hge
    rw [h.keys] at hi
    exact hi (List.getD_eq_default _ _ (by omega))
  have hne : xs ≠ [] := by
    rintro rfl
    exact absurd hlt (Nat.not_lt_zero _)
  rw [h.loop_eq hne, walk_eq]
  exact List.mem_map.mpr ⟨_, List.mem_range.mpr hlt, add_ofNat_sub r.head i⟩

end RingReport

end K530
