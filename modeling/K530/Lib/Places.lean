import Mathlib.Data.List.Nodup
import Mathlib.Data.Vector.Basic

/-!
# A Fixed Number of Places

An array with a value that means "free", used to hold a few things at a time.
Something is added at the first free place and is not added if there is none.
It is taken out by freeing its place, or by moving up what comes after it.

`Packs` is the array that keeps its free places at the end: it is a list in
disguise, `Packs.set_free` adds to the end of the list and `Packs.closeGap` erases
from it.

## Main definitions

* `closeGap`: Take a place out and move up what comes after it.
* `Packs`: An array that holds a list, and free places after it.

## Theorems

* `finIdxOf?_eq_some`, `finIdxOf?_eq_none`: The first place with a value.
* `mem_set_free`: What is there once a free place has been filled.
* `toList_closeGap`: Closing a gap erases one place and frees the last.
* `Packs.free_after`, `Packs.getElem_injective`: The places of a packed array.
* `Packs.set_free`: Filling the first free place.
* `Packs.full_iff`: There is no free place exactly when the list is as long as the
  array.
* `Packs.closeGap`: Taking an element out.
-/

namespace Places

variable {α : Type*} {n : Nat}

/-! ### The first place with a value -/

section First

variable [DecidableEq α]

theorem finIdxOf?_eq_none (xs : Vector α n) (a : α) : xs.finIdxOf? a = none ↔ a ∉ xs := by
  rw [← Vector.mem_toList_iff, ← List.finIdxOf?_eq_none_iff, Vector.finIdxOf?_toList,
    Option.map_eq_none_iff]

theorem finIdxOf?_eq_some (xs : Vector α n) (a : α) (i : Fin n) (h : xs.finIdxOf? a = some i) :
    xs[i] = a ∧ ∀ j < i, xs[j] ≠ a := by
  have hlist : xs.toList.finIdxOf? a = some (Fin.cast Vector.length_toList.symm i) := by
    rw [Vector.finIdxOf?_toList, h, Option.map_some]
  rw [List.finIdxOf?_eq_some_iff] at hlist
  refine ⟨hlist.1, fun j hj => ?_⟩
  exact hlist.2 (Fin.cast Vector.length_toList.symm j) hj

end First

theorem mem_set_free (xs : Vector α n) (free a b : α) (i : Fin n) (hi : xs[i] = free)
    (hb : b ≠ free) : b ∈ xs.setIfInBounds i a ↔ b ∈ xs ∨ b = a := by
  simp only [Vector.mem_iff_getElem, Vector.getElem_setIfInBounds]
  constructor
  · rintro ⟨j, hj, hval⟩
    by_cases hij : i.val = j
    · rw [if_pos hij] at hval
      exact Or.inr hval.symm
    · rw [if_neg hij] at hval
      exact Or.inl ⟨j, hj, hval⟩
  · rintro (⟨j, hj, hval⟩ | rfl)
    · refine ⟨j, hj, ?_⟩
      have hij : i.val ≠ j := by
        rintro rfl
        exact hb (hval.symm.trans hi)
      rw [if_neg hij]
      exact hval
    · exact ⟨i.val, i.isLt, if_pos rfl⟩

/-! ### Closing a gap -/

/-- Take a place out and move up what comes after it. -/
def closeGap (free : α) (i : Fin n) (xs : Vector α n) : Vector α n :=
  Vector.ofFn (fun j => if j < i then xs[j] else if h : j.val + 1 < n then xs[j.val + 1] else free)

theorem toList_closeGap (free : α) (i : Fin n) (xs : Vector α n) :
    (closeGap free i xs).toList = xs.toList.eraseIdx i ++ [free] := by
  have hi := i.isLt
  have hlen : (xs.toList.eraseIdx i).length = n - 1 := by
    rw [List.length_eraseIdx_of_lt (by rw [Vector.length_toList]; exact hi), Vector.length_toList]
  refine List.ext_getElem ?_ (fun j hj hj' => ?_)
  · rw [Vector.length_toList, List.length_append, hlen, List.length_singleton]
    omega
  · rw [Vector.length_toList] at hj
    rw [Vector.getElem_toList]
    unfold closeGap
    rw [Vector.getElem_ofFn]
    by_cases hlast : j + 1 < n
    · rw [List.getElem_append_left (by omega), List.getElem_eraseIdx]
      by_cases hbefore : j < i.val
      · rw [if_pos (Fin.lt_def.mpr hbefore), dif_pos hbefore, Vector.getElem_toList]
        rfl
      · rw [if_neg (fun hc => hbefore (Fin.lt_def.mp hc)), dif_pos hlast, dif_neg hbefore,
          Vector.getElem_toList]
    · -- the last place is free, whichever was taken out
      rw [List.getElem_append_right (by omega), List.getElem_singleton]
      have hafter : ¬ j < i.val := by omega
      rw [if_neg (fun hc => hafter (Fin.lt_def.mp hc)), dif_neg hlast]

/-! ### Packed arrays -/

/-- The array holds the list, and free places after it. -/
structure Packs (free : α) (xs : Vector α n) (l : List α) : Prop where
  places : xs.toList = l ++ List.replicate (n - l.length) free
  taken : free ∉ l
  once : l.Nodup

namespace Packs

variable {free : α} {xs : Vector α n} {l : List α}

theorem nil : Packs free (Vector.replicate n free) [] :=
  ⟨by rw [Vector.toList_replicate, List.nil_append, List.length_nil, Nat.sub_zero],
    List.not_mem_nil, List.nodup_nil⟩

theorem length_le (h : Packs free xs l) : l.length ≤ n := by
  have hlen := congrArg List.length h.places
  rw [Vector.length_toList, List.length_append, List.length_replicate] at hlen
  omega

theorem mem_iff (h : Packs free xs l) (a : α) (ha : a ≠ free) : a ∈ xs ↔ a ∈ l := by
  rw [← Vector.mem_toList_iff, h.places, List.mem_append, List.mem_replicate]
  exact ⟨fun hmem => hmem.resolve_right (fun hc => ha hc.2), Or.inl⟩

theorem full_iff (h : Packs free xs l) : free ∉ xs ↔ l.length = n := by
  have hle := h.length_le
  rw [← Vector.mem_toList_iff, h.places, List.mem_append, List.mem_replicate]
  constructor
  · intro hnot
    by_contra hlen
    exact hnot (Or.inr ⟨by omega, rfl⟩)
  · intro hlen hmem
    rcases hmem with hmem | ⟨hpos, -⟩
    · exact h.taken hmem
    · omega

theorem getElem_places (h : Packs free xs l) (j : Nat) (hj : j < n) :
    xs[j] = l[j]?.getD free := by
  have hlist : xs.toList[j]? = (l ++ List.replicate (n - l.length) free)[j]? := by rw [h.places]
  rw [List.getElem?_eq_getElem (by rw [Vector.length_toList]; exact hj), Vector.getElem_toList,
    List.getElem?_append] at hlist
  by_cases hin : j < l.length
  · rw [if_pos hin] at hlist
    rw [← hlist, Option.getD_some]
  · rw [if_neg hin, List.getElem?_replicate, if_pos (by omega), Option.some.injEq] at hlist
    rw [List.getElem?_eq_none (by omega), Option.getD_none]
    exact hlist

theorem free_after (h : Packs free xs l) (i j : Fin n) (hij : i < j) (hi : xs[i] = free) :
    xs[j] = free := by
  have hget := h.getElem_places i i.isLt
  have hout : l.length ≤ i.val := by
    by_contra hin
    rw [List.getElem?_eq_getElem (Nat.not_le.mp hin), Option.getD_some] at hget
    exact h.taken (hi ▸ hget ▸ List.getElem_mem _)
  have hj := h.getElem_places j j.isLt
  rw [List.getElem?_eq_none (by omega), Option.getD_none] at hj
  exact hj

theorem getElem_injective (h : Packs free xs l) (i j : Fin n) (hi : xs[i] ≠ free)
    (hij : xs[i] = xs[j]) : i = j := by
  have hin : ∀ k : Fin n, xs[k] ≠ free → l[k.val]? = some xs[k] := by
    intro k hk
    have hget : xs[k] = l[k.val]?.getD free := h.getElem_places k k.isLt
    cases hl : l[k.val]? with
    | none =>
      rw [hl, Option.getD_none] at hget
      exact absurd hget hk
    | some a =>
      rw [hl, Option.getD_some] at hget
      rw [hget]
  have hsame : l[i.val]? = l[j.val]? := by
    rw [hin i hi, hin j (hij ▸ hi), hij]
  have hlt := (List.getElem?_eq_some_iff.mp (hin i hi)).1
  exact Fin.ext ((List.getElem?_inj hlt h.once).mp hsame)

section Change

variable [DecidableEq α]

theorem firstFree (h : Packs free xs l) (i : Fin n) (hi : xs.finIdxOf? free = some i) :
    i.val = l.length := by
  have hfirst := finIdxOf?_eq_some xs free i hi
  have hlt : ¬ i.val < l.length := by
    intro hc
    have hplace := h.getElem_places i.val i.isLt
    rw [List.getElem?_eq_getElem hc, Option.getD_some] at hplace
    exact h.taken ((hplace.symm.trans hfirst.1) ▸ List.getElem_mem hc)
  by_contra hne
  have hn := i.isLt
  have hbehind : l.length < n := by omega
  have hplace := h.getElem_places l.length hbehind
  rw [List.getElem?_eq_none (Nat.le_refl _), Option.getD_none] at hplace
  exact hfirst.2 ⟨l.length, hbehind⟩ (Fin.lt_def.mpr (by dsimp only; omega)) hplace

theorem firstIdx (h : Packs free xs l) (a : α) (i : Fin n) (hi : xs.finIdxOf? a = some i)
    (ha : a ≠ free) : ∃ hin : i.val < l.length, l[i.val] = a := by
  have hfirst := finIdxOf?_eq_some xs a i hi
  have hplace := h.getElem_places i.val i.isLt
  by_cases hin : i.val < l.length
  · rw [List.getElem?_eq_getElem hin, Option.getD_some] at hplace
    exact ⟨hin, hplace.symm.trans hfirst.1⟩
  · rw [List.getElem?_eq_none (by omega), Option.getD_none] at hplace
    exact absurd (hfirst.1.symm.trans hplace) ha

theorem set_free (h : Packs free xs l) (a : α) (i : Fin n) (hi : xs.finIdxOf? free = some i)
    (ha : a ≠ free) (hnew : a ∉ l) : Packs free (xs.setIfInBounds i a) (l ++ [a]) := by
  have hfirst := h.firstFree i hi
  have hn := i.isLt
  refine ⟨?_, ?_, ?_⟩
  · rw [Vector.toList_setIfInBounds, h.places, hfirst, List.set_append_right _ _ (Nat.le_refl _),
      Nat.sub_self, List.append_assoc, List.length_append, List.length_singleton,
      show n - l.length = n - (l.length + 1) + 1 by omega, List.replicate_succ, List.set_cons_zero]
    rfl
  · rw [List.mem_append, List.mem_singleton]
    rintro (hc | hc)
    · exact h.taken hc
    · exact ha hc.symm
  · exact List.nodup_append.mpr ⟨h.once, List.nodup_singleton a, fun b hb c hc hbc =>
      hnew (List.mem_singleton.mp hc ▸ hbc ▸ hb)⟩

theorem closeGap (h : Packs free xs l) (a : α) (i : Fin n) (hi : xs.finIdxOf? a = some i)
    (ha : a ≠ free) : Packs free (closeGap free i xs) (l.erase a) := by
  obtain ⟨hin, hval⟩ := h.firstIdx a i hi ha
  have hle := h.length_le
  have herase : l.erase a = l.eraseIdx i := by
    rw [← hval, h.once.erase_getElem i.val hin]
  have hlen : (l.erase a).length = l.length - 1 := by
    rw [herase, List.length_eraseIdx_of_lt hin]
  refine ⟨?_, fun hc => h.taken (List.mem_of_mem_erase hc), h.once.erase a⟩
  -- the place taken out comes back free behind the others
  rw [toList_closeGap, h.places, List.eraseIdx_append_of_lt_length hin, hlen, ← herase,
    List.append_assoc, show n - (l.length - 1) = n - l.length + 1 by omega, List.replicate_succ']

end Change

end Packs

end Places
