import Mathlib.Data.List.TakeWhile
import K530.Lib.Checked

/-!
# Strings in Arrays

A string is what is before the first zero of an array of characters, and the functions of
`string.h` that are here read and write strings in such arrays. They do not know how long the
arrays are: one that has no zero is read beyond its end, and one that is too short is written
beyond it. Both are `none`.

A string is safe in an array that ends with a zero, and each function says what keeps it so.

## Main definitions

* `text`: The string in an array.
* `strcpy`, `strncpy`, `strcat`: Writing strings.
* `words`, `cut`: What `strtok` finds and does, when it is called until there is nothing more.
* `itoa`: A number, written as a string.
* `Ended`: The last character of an array is a zero.

## Theorems

* `text_eq_some_iff`: The string in an array.
* `Ended.text_total`: There is one, and it is shorter than the array.
* `strcpy_isSome_iff`, `strcat_isSome_iff`, `itoa_isSome_iff`: The room they need.
* `strcpy_eq`: The string `strcpy` writes.
* `Ended.cut`: The string that is left of one that is cut.
* `Ended.writeFrom`, `Ended.strcpy`, `Ended.strncpy`, `Ended.strcat`: What keeps the end.
-/

namespace CString

open Checked

variable {n m : Nat}

def nul : Char := Char.ofNat 0

/-- The string in an array. -/
def text (v : Vector Char n) : Option (List Char) :=
  if nul ∈ v.toList then some (v.toList.takeWhile (fun c => c ≠ nul)) else none

/-- `strcpy`, of a string that has been read. -/
def strcpy (v : Vector Char n) (s : List Char) : Option (Vector Char n) :=
  writeFrom (s ++ [nul]) 0 v

/-- `strncpy`: no more than some characters are read, and as many are written. -/
def strncpy (v : Vector Char n) (source : Vector Char m) (count : Nat) :
    Option (Vector Char n) :=
  if count ≤ m ∨ nul ∈ source.toList then
    let s := (source.toList.takeWhile (fun c => c ≠ nul)).take count
    writeFrom (s ++ List.replicate (count - s.length) nul) 0 v
  else none

/-- `strncat`, of one character. -/
def strcat (v : Vector Char n) (c : Char) : Option (Vector Char n) :=
  (text v).bind (fun s => writeFrom [c, nul] s.length v)

/-- The words of a string, which are separated by spaces, the first of them begun already. -/
def wordsFrom (word : List Char) : List Char → List (List Char)
  | [] => if word = [] then [] else [word]
  | c :: s =>
    if c = ' ' then (if word = [] then wordsFrom [] s else word :: wordsFrom [] s)
    else wordsFrom (word ++ [c]) s

/-- What `strtok` finds, called until there is nothing more. -/
def words (s : List Char) : List (List Char) := wordsFrom [] s

/-- And what it leaves: a zero in the place of each space that ends a word. -/
def cut (inWord : Bool) : List Char → List Char
  | [] => []
  | c :: s => (if c = ' ' ∧ inWord = true then nul else c) :: cut (decide (c ≠ ' ')) s

/-- `itoa`, of a number that is not negative. -/
def itoa (value base : Nat) (v : Vector Char n) : Option (Vector Char n) :=
  strcpy v (Nat.toDigits base value)

/-- The last character of an array is a zero. -/
def Ended (v : Vector Char n) : Prop := v.toList.getLast? = some nul

instance (v : Vector Char n) : Decidable (Ended v) := inferInstanceAs (Decidable (_ = _))

/-! ### Reading -/

theorem text_eq_some_iff (v : Vector Char n) (s : List Char) :
    text v = some s ↔ nul ∉ s ∧ ∃ rest, v.toList = s ++ nul :: rest := by
  unfold text
  constructor
  · intro h
    by_cases hmem : nul ∈ v.toList
    · rw [if_pos hmem, Option.some.injEq] at h
      subst h
      refine ⟨fun hin => ?_, ?_⟩
      · simpa using List.mem_takeWhile_imp hin
      · cases hdrop : v.toList.dropWhile (fun c => c ≠ nul) with
        | nil =>
          rw [List.dropWhile_eq_nil_iff] at hdrop
          simpa using hdrop nul hmem
        | cons c rest =>
          have hc : c = nul := by
            have := List.head?_dropWhile_not (fun c => c ≠ nul) v.toList
            rw [hdrop] at this
            simpa using this
          refine ⟨rest, ?_⟩
          have hsplit : v.toList.takeWhile (fun c => decide (c ≠ nul)) ++
              v.toList.dropWhile (fun c => decide (c ≠ nul)) = v.toList :=
            List.takeWhile_append_dropWhile
          rw [hdrop, hc] at hsplit
          exact hsplit.symm
    · rw [if_neg hmem] at h
      cases h
  · rintro ⟨hnone, rest, hlist⟩
    have hmem : nul ∈ v.toList := by
      rw [hlist]
      exact List.mem_append_right s List.mem_cons_self
    rw [if_pos hmem, hlist, List.takeWhile_append_of_pos, List.takeWhile_cons_of_neg (by simp),
      List.append_nil]
    intro c hc
    have hne : c ≠ nul := fun heq => hnone (heq ▸ hc)
    simpa using hne

theorem text_length_lt {v : Vector Char n} {s : List Char} (h : text v = some s) :
    s.length < n := by
  obtain ⟨-, rest, hlist⟩ := (text_eq_some_iff v s).mp h
  have hlen := congrArg List.length hlist
  rw [Vector.length_toList, List.length_append, List.length_cons] at hlen
  omega

theorem Ended.text_total {v : Vector Char n} (h : Ended v) : ∃ s, text v = some s :=
  ⟨_, if_pos (List.mem_of_getLast? h)⟩

theorem ended_replicate (hpos : 0 < n) : Ended (Vector.replicate n nul) := by
  unfold Ended
  rw [Vector.toList_replicate, List.getLast?_replicate, if_neg (Nat.ne_of_gt hpos)]

/-! ### Writing -/

theorem Ended.writeFrom {v w : Vector Char n} (h : Ended v) {s : List Char} {k : Nat}
    (hwrite : writeFrom s k v = some w) (hroom : k + s.length ≤ n)
    (hlast : k + s.length = n → s.getLast? = some nul) : Ended w := by
  obtain ⟨w', hw', hlist⟩ := writeFrom_total s k v hroom
  cases hwrite.symm.trans hw'
  unfold Ended at h ⊢
  rw [hlist]
  by_cases hreach : k + s.length = n
  · have hdrop : v.toList.drop (k + s.length) = [] :=
      List.drop_of_length_le (by rw [Vector.length_toList, hreach])
    rw [hdrop, List.append_nil, List.getLast?_append, hlast hreach]
    rfl
  · have hlen : k + s.length < v.toList.length := by
      rw [Vector.length_toList]
      omega
    rw [List.getLast?_append, List.getLast?_drop, if_neg (Nat.not_le_of_lt hlen), h]
    rfl

theorem strcpy_isSome_iff (v : Vector Char n) (s : List Char) :
    (strcpy v s).isSome ↔ s.length < n := by
  unfold strcpy
  rw [writeFrom_isSome_iff _ _ _ (Nat.zero_le n), List.length_append, List.length_singleton]
  omega

theorem strcpy_eq (v : Vector Char n) (s : List Char) (hs : nul ∉ s) (hlen : s.length < n) :
    ∃ w, strcpy v s = some w ∧ text w = some s := by
  obtain ⟨w, hw, hlist⟩ := writeFrom_total (s ++ [nul]) 0 v (by
    rw [List.length_append, List.length_singleton]
    omega)
  refine ⟨w, hw, (text_eq_some_iff w s).mpr ⟨hs, v.toList.drop (0 + (s ++ [nul]).length), ?_⟩⟩
  rw [hlist, List.take_zero, List.nil_append, List.append_assoc, List.singleton_append]

theorem Ended.strcpy {v w : Vector Char n} (h : Ended v) {s : List Char}
    (hcopy : CString.strcpy v s = some w) : Ended w := by
  have hlen : s.length < n := (strcpy_isSome_iff v s).mp (by rw [hcopy]; rfl)
  refine h.writeFrom hcopy ?_ (fun _ => List.getLast?_concat)
  rw [List.length_append, List.length_singleton]
  omega

theorem Ended.strncpy {v : Vector Char n} (h : Ended v) (source : Vector Char n)
    (hsource : Ended source) (count : Nat) (hcount : count ≤ n) :
    ∃ w, CString.strncpy v source count = some w ∧ Ended w := by
  obtain ⟨s, hs⟩ := hsource.text_total
  have hshort := text_length_lt hs
  have htake : source.toList.takeWhile (fun c => c ≠ nul) = s := by
    unfold text at hs
    rw [if_pos (List.mem_of_getLast? hsource)] at hs
    exact Option.some.inj hs
  unfold CString.strncpy
  rw [if_pos (Or.inl hcount), htake]
  dsimp only
  have hlen : (s.take count ++ List.replicate (count - (s.take count).length) nul).length =
      count := by
    rw [List.length_append, List.length_replicate, List.length_take]
    omega
  obtain ⟨w, hw, -⟩ := writeFrom_total
    (s.take count ++ List.replicate (count - (s.take count).length) nul) 0 v (by omega)
  refine ⟨w, hw, h.writeFrom hw (by omega) (fun hreach => ?_)⟩
  -- the string is shorter than the array, so that zeros are written at the end
  have hpad : count - (s.take count).length ≠ 0 := by
    rw [List.length_take]
    omega
  rw [List.getLast?_append, List.getLast?_replicate, if_neg hpad]
  rfl

theorem strcat_isSome_iff {v : Vector Char n} {s : List Char} (h : text v = some s) (c : Char) :
    (strcat v c).isSome ↔ s.length + 1 < n := by
  have hlen := text_length_lt h
  unfold strcat
  rw [h, Option.bind_some, writeFrom_isSome_iff _ _ _ hlen.le]
  exact Iff.rfl

theorem Ended.strcat {v w : Vector Char n} (h : Ended v) {c : Char}
    (hcat : CString.strcat v c = some w) : Ended w := by
  obtain ⟨s, hs⟩ := h.text_total
  have hlen : s.length + 1 < n := (strcat_isSome_iff hs c).mp (by rw [hcat]; rfl)
  unfold CString.strcat at hcat
  rw [hs, Option.bind_some] at hcat
  exact h.writeFrom hcat hlen (fun _ => rfl)

/-! ### Words and numbers -/

theorem cut_length (inWord : Bool) (s : List Char) : (cut inWord s).length = s.length := by
  induction s generalizing inWord with
  | nil => rfl
  | cons c s ih => rw [cut, List.length_cons, List.length_cons, ih]

theorem takeWhile_append_nul (s rest : List Char) :
    (s ++ nul :: rest).takeWhile (fun c => c ≠ nul) = s.takeWhile (fun c => c ≠ nul) := by
  induction s with
  | nil => rfl
  | cons c s ih =>
    rw [List.cons_append, List.takeWhile_cons, List.takeWhile_cons, ih]

theorem Ended.cut {v : Vector Char n} (h : Ended v) {s : List Char} (hs : text v = some s) :
    ∃ w, Checked.writeFrom (CString.cut false s) 0 v = some w ∧ Ended w ∧
      text w = some ((CString.cut false s).takeWhile (fun c => c ≠ nul)) := by
  have hlen := text_length_lt hs
  obtain ⟨-, rest, hlist⟩ := (text_eq_some_iff v s).mp hs
  obtain ⟨w, hw, hcut⟩ := writeFrom_total (CString.cut false s) 0 v (by
    rw [cut_length]
    omega)
  have hroom : 0 + (CString.cut false s).length < n := by
    rw [cut_length]
    omega
  have hend : Ended w := h.writeFrom hw hroom.le (fun hreach => absurd hreach hroom.ne)
  refine ⟨w, hw, hend, ?_⟩
  -- what is behind the string stays, its zero first
  have hbehind : v.toList.drop (0 + (CString.cut false s).length) = nul :: rest := by
    rw [cut_length, Nat.zero_add, hlist, List.drop_left]
  rw [text, if_pos (List.mem_of_getLast? hend), hcut, hbehind, List.take_zero, List.nil_append,
    takeWhile_append_nul]

theorem mem_wordsFrom {word s w : List Char} (hw : w ∈ wordsFrom word s) {c : Char}
    (hc : c ∈ w) : c ∈ word ∨ c ∈ s := by
  induction s generalizing word with
  | nil =>
    unfold wordsFrom at hw
    split at hw
    · exact absurd hw List.not_mem_nil
    · rw [List.mem_singleton.mp hw] at hc
      exact Or.inl hc
  | cons d s ih =>
    have hlater : ∀ v, w ∈ wordsFrom v s → (c ∈ v → c ∈ word ∨ c ∈ d :: s) →
        c ∈ word ∨ c ∈ d :: s :=
      fun v hv hmem => (ih hv).elim hmem (fun hs => Or.inr (List.mem_cons_of_mem d hs))
    rw [wordsFrom] at hw
    split_ifs at hw with hspace hempty
    · exact hlater [] hw (fun hnil => absurd hnil List.not_mem_nil)
    · rcases List.mem_cons.mp hw with rfl | hw
      · exact Or.inl hc
      · exact hlater [] hw (fun hnil => absurd hnil List.not_mem_nil)
    · refine hlater _ hw (fun hmem => ?_)
      rcases List.mem_append.mp hmem with hmem | hmem
      · exact Or.inl hmem
      · rw [List.mem_singleton.mp hmem]
        exact Or.inr List.mem_cons_self

theorem mem_words {s w : List Char} (hw : w ∈ words s) {c : Char} (hc : c ∈ w) : c ∈ s :=
  (mem_wordsFrom hw hc).elim (fun hnil => absurd hnil List.not_mem_nil) id

theorem itoa_isSome_iff (v : Vector Char n) (value base : Nat) (hbase : 1 < base) (hn : 1 < n) :
    (itoa value base v).isSome ↔ value < base ^ (n - 1) := by
  unfold itoa
  rw [strcpy_isSome_iff, ← Nat.length_toDigits_le_iff hbase (by omega : 0 < n - 1)]
  omega

end CString
