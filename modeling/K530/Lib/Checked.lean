import Mathlib.Data.Vector.Basic
import Mathlib.Tactic.Common

/-!
# Arrays with Checked Indexes

A program in a language that does not check its indexes is modelled here by one
that does: an access outside the array is `none`, and so is a division by zero,
and everything after it is too. That every index is inside its array is then
that the program has a result.

`loop` is a counting loop whose body may fault. Whether it faults is often a
matter of the count alone and not of the state, and `loop_isSome_iff` is for
that case. What it leaves behind is found by an invariant, `loop_total`.

## Main definitions

* `fetch`, `store`: Read and write an entry of an array.
* `quotient`, `remainder`: Divide.
* `loop`: A counting loop.
* `search`: A counting loop that looks for something.
* `copyUpTo`: Copy a list into an array as far as a limit.
* `readFirst`, `writeFrom`: Read and write a part of an array.
* `AlongTo`: Every step of a run that may fault meets a condition.
* `Stretch`: A list in memory.
* `Text`, `Text.memory`: A string, and memory that has it.

## Theorems

* `fetch_append`, `store_append`: An entry with what is before it and behind it.
* `loop_invariant`: What the turns that do not fault keep.
* `loop_isSome_iff`, `loop_isSome_iff_of`: The loop does not fault exactly when no turn does.
* `loop_total`: An invariant that keeps the turns from faulting.
* `search_total`: A search whose turns do not fault ends, by the bound.
* `copyUpTo_total`: Copying as far as a limit inside the array does not fault.
* `writeFrom_total`, `writeFrom_isSome_iff`: Writing a list does not fault exactly when there is
  room for it.
* `getD_blocks`: An entry of a list made of blocks of one length.
* `foldlM_invariant`: An invariant of the steps that do not fault.
* `foldlM_isSome_iff`: A run does not fault exactly when every step meets the
  condition under which it does not.
* `Stretch.append`: A list in two parts.
* `Text.stretch`: A string is in its memory.
-/

namespace Checked

universe u v w

variable {α : Type u} {σ : Type v} {n : Nat}

/-- Read an entry. -/
def fetch (v : Vector α n) (i : Nat) : Option α :=
  v.toList[i]?

/-- Write an entry. -/
def store (v : Vector α n) (i : Nat) (a : α) : Option (Vector α n) :=
  if i < n then some (v.setIfInBounds i a) else none

variable (v : Vector α n)

theorem fetch_isSome_iff (i : Nat) : (fetch v i).isSome ↔ i < n := by
  unfold fetch
  rw [isSome_getElem?, Vector.length_toList]

theorem store_isSome_iff (i : Nat) (a : α) : (store v i a).isSome ↔ i < n := by
  unfold store
  by_cases h : i < n
  · simp only [h, if_true, Option.isSome_some]
  · simp only [h, if_false, Option.isSome_none, Bool.false_eq_true]

theorem fetch_total (i : Nat) (h : i < n) : ∃ a, fetch v i = some a :=
  Option.isSome_iff_exists.mp ((fetch_isSome_iff v i).mpr h)

theorem store_total (i : Nat) (a : α) (h : i < n) : ∃ v', store v i a = some v' :=
  Option.isSome_iff_exists.mp ((store_isSome_iff v i a).mpr h)

theorem store_of_lt (i : Nat) (a : α) (h : i < n) : store v i a = some (v.setIfInBounds i a) := by
  unfold store
  rw [if_pos h]

theorem fetch_setIfInBounds (i j : Nat) (a : α) (h : i < n) :
    fetch (v.setIfInBounds i a) j = if i = j then some a else fetch v j := by
  unfold fetch
  rw [Vector.toList_setIfInBounds, List.getElem?_set, Vector.length_toList]
  by_cases hij : i = j
  · rw [if_pos hij, if_pos hij, if_pos (hij ▸ h)]
  · rw [if_neg hij, if_neg hij]

theorem fetch_store {v w : Vector α n} {i : Nat} {a : α} (h : store v i a = some w) (j : Nat) :
    fetch w j = if i = j then some a else fetch v j := by
  have hi : i < n := (store_isSome_iff v i a).mp (by rw [h]; rfl)
  rw [store_of_lt v i a hi] at h
  cases h
  exact fetch_setIfInBounds v i j a hi

theorem mem_of_fetch {v : Vector α n} {i : Nat} {a : α} (h : fetch v i = some a) :
    a ∈ v.toList :=
  List.mem_of_getElem? h

theorem mem_of_store {v w : Vector α n} {i : Nat} {a c : α} (h : store v i a = some w)
    (hc : c ∈ w.toList) : c ∈ v.toList ∨ c = a := by
  have hi : i < n := (store_isSome_iff v i a).mp (by rw [h]; rfl)
  rw [store_of_lt v i a hi] at h
  cases h
  rw [Vector.toList_setIfInBounds] at hc
  exact List.mem_or_eq_of_mem_set hc

theorem fetch_append {v : Vector α n} {l r : List α} {a : α} (h : v.toList = l ++ a :: r) :
    fetch v l.length = some a := by
  unfold fetch
  rw [h, List.getElem?_append_right (Nat.le_refl _), Nat.sub_self, List.getElem?_cons_zero]

theorem store_append {v : Vector α n} {l r : List α} {a : α} (h : v.toList = l ++ a :: r)
    (c : α) : ∃ w, store v l.length c = some w ∧ w.toList = l ++ c :: r := by
  have hlen : v.toList.length = n := v.length_toList
  rw [h, List.length_append, List.length_cons] at hlen
  refine ⟨v.setIfInBounds l.length c, store_of_lt v l.length c (by omega), ?_⟩
  rw [Vector.toList_setIfInBounds, h, List.set_append_right _ _ (Nat.le_refl _), Nat.sub_self,
    List.set_cons_zero]

theorem fetch_replicate (a : α) (i : Nat) (h : i < n) :
    fetch (Vector.replicate n a) i = some a := by
  unfold fetch
  rw [Vector.toList_replicate, List.getElem?_replicate, if_pos h]

/-- Divide, by zero with a fault. -/
def quotient (a d : Nat) : Option Nat :=
  if d = 0 then none else some (a / d)

/-- The remainder, by zero with a fault. -/
def remainder (a d : Nat) : Option Nat :=
  if d = 0 then none else some (a % d)

theorem quotient_isSome_iff (a d : Nat) : (quotient a d).isSome ↔ d ≠ 0 := by
  unfold quotient
  by_cases h : d = 0
  · simp [h]
  · simp [h]

theorem remainder_isSome_iff (a d : Nat) : (remainder a d).isSome ↔ d ≠ 0 := by
  unfold remainder
  by_cases h : d = 0
  · simp [h]
  · simp [h]

theorem remainder_lt {a d r : Nat} (h : remainder a d = some r) : r < d := by
  unfold remainder at h
  by_cases hzero : d = 0
  · rw [if_pos hzero] at h
    cases h
  · rw [if_neg hzero] at h
    cases h
    exact Nat.mod_lt a (Nat.pos_of_ne_zero hzero)

theorem bind_isSome_iff_of {β : Type w} {x : Option α} {f : α → Option β}
    (h : ∀ a, x = some a → (f a).isSome) : (x.bind f).isSome ↔ x.isSome := by
  cases x with
  | none => exact Iff.rfl
  | some a => exact iff_of_true (h a rfl) rfl

theorem bind_isSome_iff_right {β : Type w} {x : Option α} {f : α → Option β} {P : Prop}
    (hx : x.isSome) (hf : ∀ a, x = some a → ((f a).isSome ↔ P)) : (x.bind f).isSome ↔ P := by
  obtain ⟨a, ha⟩ := Option.isSome_iff_exists.mp hx
  rw [ha, Option.bind_some]
  exact hf a ha

/-- `for (i = 0; i < count; i++) body(i)`. -/
def loop (body : Nat → σ → Option σ) : Nat → σ → Option σ
  | 0, s => some s
  | count + 1, s => (loop body count s).bind (body count)

variable (body : Nat → σ → Option σ) (I : Nat → σ → Prop)

theorem loop_invariant (count : Nat)
    (hstep : ∀ i < count, ∀ s t, I i s → body i s = some t → I (i + 1) t) (s t : σ) (hs : I 0 s)
    (h : loop body count s = some t) : I count t := by
  induction count generalizing t with
  | zero =>
    cases h
    exact hs
  | succ count ih =>
    rw [loop] at h
    obtain ⟨u, hu, hlast⟩ := Option.bind_eq_some_iff.mp h
    exact hstep count (by omega) u t (ih (fun i hi => hstep i (by omega)) u hu) hlast

theorem loop_isSome_iff_of (ok : Nat → Prop) (count : Nat)
    (hok : ∀ i < count, ∀ s, I i s → ((body i s).isSome ↔ ok i))
    (hstep : ∀ i < count, ∀ s t, I i s → body i s = some t → I (i + 1) t) (s : σ) (hs : I 0 s) :
    (loop body count s).isSome ↔ ∀ i < count, ok i := by
  induction count with
  | zero => simp only [loop, Option.isSome_some, Nat.not_lt_zero, false_implies, implies_true]
  | succ count ih =>
    have hbefore := ih (fun i hi => hok i (by omega)) (fun i hi => hstep i (by omega))
    rw [loop]
    cases hloop : loop body count s with
    | none =>
      rw [hloop] at hbefore
      simp only [Option.bind_none, Option.isSome_none, Bool.false_eq_true, false_iff]
      intro hall
      exact Bool.noConfusion (hbefore.mpr (fun i hi => hall i (by omega)))
    | some t =>
      have ht := loop_invariant body I count (fun i hi => hstep i (by omega)) s t hs hloop
      rw [hloop] at hbefore
      rw [Option.bind_some, hok count (by omega) t ht]
      constructor
      · intro hlast i hi
        rcases Nat.lt_succ_iff_lt_or_eq.mp hi with hlt | rfl
        · exact hbefore.mp rfl i hlt
        · exact hlast
      · intro hall
        exact hall count (by omega)

theorem loop_isSome_iff (ok : Nat → Prop) (count : Nat)
    (h : ∀ i < count, ∀ s, (body i s).isSome ↔ ok i) (s : σ) :
    (loop body count s).isSome ↔ ∀ i < count, ok i :=
  loop_isSome_iff_of body (fun _ _ => True) ok count (fun i hi s _ => h i hi s)
    (fun _ _ _ _ _ _ => trivial) s trivial

theorem loop_total (count : Nat)
    (h : ∀ i < count, ∀ s, I i s → ∃ t, body i s = some t ∧ I (i + 1) t) (s : σ) (hs : I 0 s) :
    ∃ t, loop body count s = some t ∧ I count t := by
  induction count with
  | zero => exact ⟨s, rfl, hs⟩
  | succ count ih =>
    obtain ⟨t, ht, hinv⟩ := ih (fun i hi => h i (by omega))
    obtain ⟨u, hu, hnext⟩ := h count (by omega) t hinv
    refine ⟨u, ?_, hnext⟩
    rw [loop, ht, Option.bind_some, hu]

/-- From one index up to another, another array has the entries it should, and elsewhere the
    same. -/
def Written (f : Nat → α) (low high : Nat) (v w : Vector α n) : Prop :=
  ∀ i, fetch w i = if low ≤ i ∧ i < high then some (f i) else fetch v i

theorem Written.append {f : Nat → α} {low mid high : Nat} {u v w : Vector α n}
    (h : Written f low mid u v) (h' : Written f mid high v w) (hlow : low ≤ mid)
    (hhigh : mid ≤ high) : Written f low high u w := by
  intro i
  rw [h' i, h i]
  by_cases hmid : i < mid
  · rw [if_neg (by omega)]
    exact if_congr (by omega) rfl rfl
  · by_cases hi : i < high
    · rw [if_pos (by omega), if_pos (by omega)]
    · rw [if_neg (by omega), if_neg (by omega), if_neg (by omega)]

theorem loop_written (f : Nat → α) (turn : Nat → Vector α n → Option (Vector α n))
    (place : Nat → Nat) (hplace : Monotone place) (count : Nat)
    (h : ∀ i < count, ∀ v, ∃ w, turn i v = some w ∧ Written f (place i) (place (i + 1)) v w)
    (v : Vector α n) :
    ∃ w, loop turn count v = some w ∧ Written f (place 0) (place count) v w := by
  refine loop_total turn (fun i w => Written f (place 0) (place i) v w) count
    (fun i hi w hw => ?_) v (fun i => by rw [if_neg (by omega)])
  obtain ⟨u, hu, hwritten⟩ := h i hi w
  exact ⟨u, hu, hw.append hwritten (hplace (Nat.zero_le i)) (hplace (Nat.le_succ i))⟩

/-- `for (i = 0; i < count; i++) if (found(i)) break`, with `remaining` turns to
    go. The answer is the count at the end. -/
def searchFrom (found : Nat → Option Bool) : Nat → Nat → Option Nat
  | 0, i => some i
  | remaining + 1, i =>
    (found i).bind (fun hit => if hit then some i else searchFrom found remaining (i + 1))

/-- The first count of a loop at which something is found, or the bound. -/
def search (found : Nat → Option Bool) (count : Nat) : Option Nat :=
  searchFrom found count 0

theorem searchFrom_total (found : Nat → Option Bool) (remaining : Nat) :
    ∀ i, (∀ j < i + remaining, (found j).isSome) →
      ∃ k, searchFrom found remaining i = some k ∧ k ≤ i + remaining := by
  induction remaining with
  | zero =>
    intro i _
    exact ⟨i, rfl, Nat.le_refl i⟩
  | succ remaining ih =>
    intro i h
    obtain ⟨hit, hhit⟩ := Option.isSome_iff_exists.mp (h i (by omega))
    rw [searchFrom, hhit, Option.bind_some]
    cases hit with
    | true => exact ⟨i, rfl, by omega⟩
    | false =>
      obtain ⟨k, hk, hle⟩ := ih (i + 1) (fun j hj => h j (by omega))
      exact ⟨k, hk, by omega⟩

theorem search_total (found : Nat → Option Bool) (count : Nat)
    (h : ∀ i < count, (found i).isSome) : ∃ k, search found count = some k ∧ k ≤ count := by
  obtain ⟨k, hk, hle⟩ := searchFrom_total found count 0 (fun j hj => h j (by omega))
  exact ⟨k, hk, by omega⟩

/-- `for (i = 0; k < limit && text[i]; i++) v[k++] = text[i]`: copy a list into
    an array as far as a limit. The answer is the array and the index behind
    the copy. -/
def copyUpTo (limit : Nat) : List α → Nat → Vector α n → Option (Nat × Vector α n)
  | [], k, v => some (k, v)
  | a :: as, k, v =>
    if k < limit then (store v k a).bind (copyUpTo limit as (k + 1)) else some (k, v)

theorem copyUpTo_total (limit : Nat) (h : limit ≤ n) (as : List α) :
    ∀ (k : Nat) (v : Vector α n), k ≤ limit → ∃ k' v', copyUpTo limit as k v = some (k', v') ∧
      k ≤ k' ∧ k' ≤ limit ∧ ∀ i < k, fetch v' i = fetch v i := by
  induction as with
  | nil =>
    intro k v hk
    exact ⟨k, v, rfl, Nat.le_refl k, hk, fun _ _ => rfl⟩
  | cons a as ih =>
    intro k v hk
    by_cases hlt : k < limit
    · obtain ⟨k', v', hcopy, hle, hk', hold⟩ := ih (k + 1) (v.setIfInBounds k a) hlt
      refine ⟨k', v', ?_, by omega, hk', fun i hi => ?_⟩
      · rw [copyUpTo, if_pos hlt, store_of_lt v k a (by omega), Option.bind_some, hcopy]
      · rw [hold i (by omega), fetch_setIfInBounds v k i a (by omega), if_neg (by omega)]
    · exact ⟨k, v, by rw [copyUpTo, if_neg hlt], Nat.le_refl k, hk, fun _ _ => rfl⟩

/-- Read the first entries. -/
def readFirst (v : Vector α n) (count : Nat) : Option (List α) :=
  if count ≤ n then some (v.toList.take count) else none

/-- Write a list from a place on. -/
def writeFrom : List α → Nat → Vector α n → Option (Vector α n)
  | [], _, v => some v
  | a :: as, k, v => (store v k a).bind (writeFrom as (k + 1))

theorem readFirst_isSome_iff (count : Nat) : (readFirst v count).isSome ↔ count ≤ n := by
  unfold readFirst
  by_cases h : count ≤ n
  · simp [h]
  · simp [h]

theorem writeFrom_total (as : List α) (k : Nat) (v : Vector α n) (h : k + as.length ≤ n) :
    ∃ w, writeFrom as k v = some w ∧
      w.toList = v.toList.take k ++ as ++ v.toList.drop (k + as.length) := by
  induction as generalizing k v with
  | nil => exact ⟨v, rfl, by simp⟩
  | cons a as ih =>
    rw [List.length_cons] at h ⊢
    obtain ⟨w, hw, hlist⟩ := ih (k + 1) (v.setIfInBounds k a) (by omega)
    refine ⟨w, ?_, ?_⟩
    · rw [writeFrom, store_of_lt v k a (by omega), Option.bind_some, hw]
    · have hk : k < (v.toList.set k a).length := by
        rw [List.length_set, Vector.length_toList]
        omega
      rw [hlist, Vector.toList_setIfInBounds, List.take_add_one, List.getElem?_eq_getElem hk,
        List.getElem_set_self, List.take_set_of_le (Nat.le_refl k),
        List.drop_set_of_lt (by omega), show k + 1 + as.length = k + (as.length + 1) by omega]
      simp

theorem writeFrom_isSome_iff (as : List α) (k : Nat) (v : Vector α n) (hk : k ≤ n) :
    (writeFrom as k v).isSome ↔ k + as.length ≤ n := by
  constructor
  · intro h
    induction as generalizing k v with
    | nil => exact hk
    | cons a as ih =>
      rw [writeFrom] at h
      obtain ⟨w, hw, hrest⟩ := Option.bind_eq_some_iff.mp (Option.eq_some_of_isSome h)
      have hlt : k < n := (store_isSome_iff v k a).mp (by rw [hw]; rfl)
      have := ih (k + 1) w hlt (by rw [hrest]; rfl)
      rw [List.length_cons]
      omega
  · intro h
    obtain ⟨w, hw, -⟩ := writeFrom_total as k v h
    rw [hw]
    rfl

section

variable {τ : Type v} {β : Type w} (step : τ → β → Option τ)

/-- Every step of a run meets the condition on the state it starts from, as far as the run
    goes. -/
def AlongTo (C : τ → β → Prop) : τ → List β → Prop
  | _, [] => True
  | s, b :: bs => C s b ∧ ∀ t, step s b = some t → AlongTo C t bs

theorem foldlM_invariant (I : τ → Prop) (hstep : ∀ s b t, I s → step s b = some t → I t)
    (bs : List β) : ∀ s t, I s → bs.foldlM step s = some t → I t := by
  induction bs with
  | nil =>
    intro s t hs h
    rw [List.foldlM_nil] at h
    cases h
    exact hs
  | cons b bs ih =>
    intro s t hs h
    rw [List.foldlM_cons] at h
    obtain ⟨u, hu, hrest⟩ := Option.bind_eq_some_iff.mp h
    exact ih u t (hstep s b u hs hu) hrest

theorem foldlM_isSome_iff (C : τ → β → Prop) (I : τ → Prop)
    (hstep : ∀ s b t, I s → step s b = some t → I t)
    (hC : ∀ s b, I s → ((step s b).isSome ↔ C s b)) (bs : List β) :
    ∀ s, I s → ((bs.foldlM step s).isSome ↔ AlongTo step C s bs) := by
  induction bs with
  | nil =>
    intro s _
    exact iff_of_true rfl trivial
  | cons b bs ih =>
    intro s hs
    rw [List.foldlM_cons, AlongTo, ← hC s b hs]
    cases hb : step s b with
    | none => simp
    | some t =>
      rw [Option.isSome_some, eq_self_iff_true, true_and]
      have hrest := ih t (hstep s b t hs hb)
      constructor
      · rintro h u hu
        cases hu
        exact hrest.mp h
      · intro h
        exact hrest.mpr (h t rfl)

end

theorem getD_blocks (f : Nat → List α) (width : Nat) (h : ∀ j, (f j).length = width) (a : α)
    (count j r : Nat) (hj : j < count) (hr : r < width) :
    ((List.range count).flatMap f).getD (width * j + r) a = (f j).getD r a := by
  induction count with
  | zero => exact absurd hj (Nat.not_lt_zero j)
  | succ count ih =>
    have hlen : ((List.range count).flatMap f).length = width * count := by
      rw [List.length_flatMap]
      simp only [h, List.map_const', List.length_range, List.sum_replicate_nat, Nat.mul_comm]
    rw [List.range_succ, List.flatMap_append, List.flatMap_singleton]
    rcases Nat.lt_succ_iff_lt_or_eq.mp hj with hlt | rfl
    · have hin : width * j + r < width * count := by
        calc width * j + r < width * j + width := by omega
          _ = width * (j + 1) := (Nat.mul_succ width j).symm
          _ ≤ width * count := Nat.mul_le_mul_left width hlt
      rw [List.getD_eq_getElem?_getD, List.getElem?_append_left (by omega),
        ← List.getD_eq_getElem?_getD]
      exact ih hlt
    · rw [List.getD_eq_getElem?_getD, List.getElem?_append_right (by omega), hlen,
        Nat.add_sub_cancel_left, ← List.getD_eq_getElem?_getD]

end Checked

/-!
### Stretches of Memory

A list that is in memory from some place on. What is before it and behind it is
anything, so that a program that leaves the list can be caught at the first place
it reads beyond it.

A list without zeros and a zero behind it is a string. What is behind the zero
belongs to others.
-/

namespace Memory

universe u

variable {α : Type u}

/-- The list is in memory from this place on. -/
def Stretch (mem : Nat → α) : Nat → List α → Prop
  | _, [] => True
  | place, a :: l => mem place = a ∧ Stretch mem (place + 1) l

theorem Stretch.append {mem : Nat → α} {place : Nat} {l r : List α}
    (h : Stretch mem place (l ++ r)) : Stretch mem place l ∧ Stretch mem (place + l.length) r := by
  induction l generalizing place with
  | nil => exact ⟨trivial, h⟩
  | cons a l ih =>
    obtain ⟨hl, hr⟩ := ih h.2
    refine ⟨⟨h.1, hl⟩, ?_⟩
    rwa [List.length_cons, Nat.add_comm l.length, ← Nat.add_assoc]

theorem stretch_of_get {mem : Nat → α} {place : Nat} {l : List α}
    (h : ∀ i a, l[i]? = some a → mem (place + i) = a) : Stretch mem place l := by
  induction l generalizing place with
  | nil => trivial
  | cons a l ih =>
    refine ⟨h 0 a rfl, ih (fun i b hb => ?_)⟩
    rw [Nat.add_assoc, Nat.add_comm 1 i]
    exact h (i + 1) b hb

/-- A string. -/
structure Text (α : Type u) [Zero α] where
  bytes : List α
  noZero : ∀ b ∈ bytes, b ≠ 0

namespace Text

variable [Zero α]

/-- Memory that has the string at its beginning. -/
def memory (s : Text α) (beyond : Nat → α) (place : Nat) : α :=
  ((s.bytes ++ [0])[place]?).getD (beyond place)

theorem stretch (s : Text α) (beyond : Nat → α) :
    Stretch (s.memory beyond) 0 (s.bytes ++ [0]) := by
  refine stretch_of_get (fun i a ha => ?_)
  unfold memory
  rw [Nat.zero_add, ha]
  rfl

end Text

end Memory
