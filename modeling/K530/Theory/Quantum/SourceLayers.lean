import K530.Core.Layer

/-!
# Separation of the Source Layers

The cache is a bit-sliced table with a slot for every number of a key, so what
is written for one number is read for that number and no other. Keys are kept
apart, then, when their numbers are. A matrix of at most 256 keys numbers them
all differently. In a larger one the key numbered 256 shares its slot with the
first.

A slot holds the bits of a layer that the layer state has a name for. That is
all of them unless the keyboard defines `MAX_LAYER` beyond its layer state.

No access leaves the cache, however large the matrix: a number that begins again
is smaller than the one it stands for.

## Theorems

* `keyNumber_row`: A number's row is in the cache.
* `remembers_iff`: When every key is read as it was last updated.
-/

namespace K530

namespace LayerBuild

open Checked

variable {b : LayerBuild} (key : MatrixKey b)

theorem keyNumber_le : (keyNumber key).toNat ≤ key.col.val + key.row.val * b.cols := by
  unfold keyNumber
  rw [BitVec.toNat_ofNat]
  exact Nat.mod_le _ _

theorem position_lt : key.col.val + key.row.val * b.cols < b.rows * b.cols := by
  have hcol := key.col.isLt
  have hrow : (key.row.val + 1) * b.cols ≤ b.rows * b.cols :=
    Nat.mul_le_mul_right _ key.row.isLt
  rw [Nat.succ_mul] at hrow
  omega

theorem keyNumber_row : (keyNumber key).toNat / 8 < b.cacheRows := by
  have hle := keyNumber_le key
  have hlt := position_lt key
  unfold cacheRows
  omega

theorem layerBits_le (b : LayerBuild) : b.layerBits ≤ 8 := by
  have hkind := b.layerBits_kind
  omega

/-! ### The table -/

theorem fetch_row (cache : b.Cache) (key : MatrixKey b) :
    fetch cache ((keyNumber key).toNat / 8) = some (BitTable.row cache (keyNumber key).toNat) := by
  have hrow : (keyNumber key).toNat / 8 < cache.toList.length := by
    rw [Vector.length_toList]
    exact keyNumber_row key
  unfold fetch BitTable.row
  rw [List.getD_eq_getElem?_getD, List.getElem?_eq_getElem hrow, Option.getD_some]

theorem update_eq (layer : Byte) (cache : b.Cache) :
    update key layer cache = some (BitTable.put (keyNumber key).toNat layer cache) := by
  unfold update
  simp only [fetch_row, Option.bind_some]
  rw [store_of_lt _ _ _ (keyNumber_row key)]
  rfl

theorem read_eq (cache : b.Cache) :
    read key cache = some (BitTable.get (keyNumber key).toNat cache) := by
  unfold read
  simp only [fetch_row, Option.map_some]
  rfl

theorem get_empty (slot : Nat) : BitTable.get slot (empty b) = 0 := by
  refine BitVec.eq_of_getLsbD_eq (fun n _ => ?_)
  rw [BitTable.get_getLsbD _ _ _ (layerBits_le b)]
  refine (Bool.and_eq_false_iff.mpr (Or.inr ?_)).trans BitVec.getLsbD_zero.symm
  unfold BitTable.bitAt BitTable.row empty
  simp only [List.getD_eq_getElem?_getD, Vector.toList_replicate, List.getElem?_replicate]
  split <;> simp [List.getElem?_replicate] <;> split <;> simp

/-! ### Runs of updates -/

def table (cache : b.Cache) (us : List (MatrixKey b × Byte)) : b.Cache :=
  us.foldl (fun cache u => BitTable.put (keyNumber u.1).toNat u.2 cache) cache

variable (us : List (MatrixKey b × Byte))

theorem updates_eq : ∀ cache : b.Cache, updates cache us = some (table cache us) := by
  induction us with
  | nil => exact fun cache => rfl
  | cons u us ih =>
    intro cache
    unfold updates
    rw [update_eq, Option.bind_some, ih]
    rfl

theorem get_table (hapart : ∀ u ∈ us, keyNumber u.1 = keyNumber key → u.1 = key)
    (hlayer : ∀ u ∈ us, u.2.toNat < 2 ^ b.layerBits) :
    ∀ (cache : b.Cache) (layer : Byte), BitTable.get (keyNumber key).toNat cache = layer →
      BitTable.get (keyNumber key).toNat (table cache us) =
        us.foldl (fun layer u => if u.1 = key then u.2 else layer) layer := by
  induction us with
  | nil => exact fun cache layer h => h
  | cons u us ih =>
    intro cache layer h
    have hu := List.mem_cons_self (a := u) (l := us)
    refine ih (fun v hv => hapart v (List.mem_cons_of_mem u hv))
      (fun v hv => hlayer v (List.mem_cons_of_mem u hv)) _ _ ?_
    dsimp only
    -- An update of another key has another number, so it is of another slot.
    by_cases hkey : u.1 = key
    · rw [if_pos hkey, hkey]
      exact BitTable.get_put_self _ u.2 cache (layerBits_le b) (keyNumber_row key) (hlayer u hu)
    · have hne : (keyNumber u.1).toNat ≠ (keyNumber key).toNat :=
        fun heq => hkey (hapart u hu (BitVec.eq_of_toNat_eq heq))
      rw [if_neg hkey, ← h]
      exact BitTable.get_put_other _ _ u.2 cache (layerBits_le b) (keyNumber_row u.1) hne

theorem get_table_zero (slot : Nat) (us : List (MatrixKey b × Byte))
    (hlayer : ∀ u ∈ us, u.2 = 0) :
    ∀ cache : b.Cache, BitTable.get slot cache = 0 → BitTable.get slot (table cache us) = 0 := by
  induction us with
  | nil => exact fun cache h => h
  | cons u us ih =>
    intro cache h
    refine ih (fun v hv => hlayer v (List.mem_cons_of_mem u hv)) _ ?_
    dsimp only
    rw [hlayer u List.mem_cons_self]
    -- The slot may be this one's or not, and holds a zero either way.
    by_cases hslot : (keyNumber u.1).toNat = slot
    · rw [← hslot]
      exact BitTable.get_put_self _ 0 cache (layerBits_le b) (keyNumber_row u.1)
        (Nat.two_pow_pos _)
    · rw [BitTable.get_put_other _ _ 0 cache (layerBits_le b) (keyNumber_row u.1) hslot]
      exact h

theorem lastLayer_zero (hlayer : ∀ u ∈ us, u.2 = 0) : lastLayer key us = 0 := by
  unfold lastLayer
  induction us with
  | nil => rfl
  | cons u us ih =>
    rw [List.foldl_cons, hlayer u List.mem_cons_self, ite_self]
    exact ih (fun v hv => hlayer v (List.mem_cons_of_mem u hv))

theorem lastLayer_self (layer : Byte) : lastLayer key [(key, layer)] = layer :=
  if_pos rfl

/-! ### Numbers -/

def keyAt (b : LayerBuild) (place : Nat) (h : place < b.rows * b.cols) : MatrixKey b :=
  { row := ⟨place / b.cols, Nat.div_lt_of_lt_mul (by rwa [Nat.mul_comm])⟩,
    col := ⟨place % b.cols, Nat.mod_lt _ b.cols_pos⟩ }

theorem keyNumber_keyAt (b : LayerBuild) (place : Nat) (h : place < b.rows * b.cols) :
    keyNumber (keyAt b place h) = BitVec.ofNat 8 place :=
  congrArg (BitVec.ofNat 8) (by
    rw [Nat.add_comm, Nat.mul_comm]
    exact Nat.div_add_mod place b.cols)

theorem keyNumber_inj (hfit : b.rows * b.cols ≤ 256) (key other : MatrixKey b)
    (h : keyNumber key = keyNumber other) : key = other := by
  have hkey := position_lt key
  have hother := position_lt other
  have hnumber : key.col.val + key.row.val * b.cols = other.col.val + other.row.val * b.cols := by
    have htoNat := congrArg BitVec.toNat h
    unfold keyNumber at htoNat
    rwa [BitVec.toNat_ofNat, BitVec.toNat_ofNat, Nat.mod_eq_of_lt (by omega),
      Nat.mod_eq_of_lt (by omega)] at htoNat
  -- The column is the remainder of a number by the columns.
  have hcol : key.col.val = other.col.val := by
    have hmod := congrArg (· % b.cols) hnumber
    simpa only [Nat.add_mul_mod_self_right, Nat.mod_eq_of_lt key.col.isLt,
      Nat.mod_eq_of_lt other.col.isLt] using hmod
  have hrow : key.row.val = other.row.val :=
    Nat.eq_of_mul_eq_mul_right b.cols_pos (by omega)
  cases key
  cases other
  rw [MatrixKey.mk.injEq]
  exact ⟨Fin.ext hrow, Fin.ext hcol⟩

/-! ### The cache -/

/-- Whatever the updates, none leaves the cache, and every key is read as it was
    last updated. -/
def Remembers (b : LayerBuild) : Prop :=
  ∀ us : List (MatrixKey b × Byte), (∀ u ∈ us, u.2.toNat < b.maxLayer) →
    ∃ cache, updates (empty b) us = some cache ∧
      ∀ key, read key cache = some (lastLayer key us)

theorem remembers_zero (h : b.maxLayer ≤ 1) : Remembers b := by
  intro us hus
  have hzero : ∀ u ∈ us, u.2 = 0 := by
    intro u hu
    have hlt := hus u hu
    exact BitVec.eq_of_toNat_eq (show u.2.toNat = 0 by omega)
  refine ⟨_, updates_eq us _, fun key => ?_⟩
  rw [read_eq, get_table_zero _ us hzero _ (get_empty _), lastLayer_zero key us hzero]

theorem remembers_apart (hfit : b.rows * b.cols ≤ 256) (hlayers : b.maxLayer ≤ 2 ^ b.layerBits) :
    Remembers b := by
  intro us hus
  refine ⟨_, updates_eq us _, fun key => ?_⟩
  rw [read_eq, get_table key us (fun u _ => keyNumber_inj hfit u.1 key)
    (fun u hu => Nat.lt_of_lt_of_le (hus u hu) hlayers) _ 0 (get_empty _)]
  rfl

theorem remembers_fit (hlayer : 1 < b.maxLayer) (h : Remembers b) : b.rows * b.cols ≤ 256 := by
  by_contra hlarge
  have hfirst : 0 < b.rows * b.cols := by omega
  -- Both numbers are zero in eight bits, and the keys are two.
  have hkeys : keyNumber (keyAt b 256 (by omega)) = keyNumber (keyAt b 0 hfirst) := by
    rw [keyNumber_keyAt, keyNumber_keyAt]
    rfl
  have hne : keyAt b 256 (by omega) ≠ keyAt b 0 hfirst := by
    intro heq
    have hrow := congrArg (fun k : MatrixKey b => k.row.val * b.cols + k.col.val) heq
    simp only [keyAt, Nat.div_add_mod', Nat.zero_div, Nat.zero_mul, Nat.zero_mod] at hrow
    omega
  -- Pressing the one on layer one is read back for the other.
  obtain ⟨cache, hrun, hread⟩ := h [(keyAt b 256 (by omega), 1)] (by simpa using hlayer)
  rw [updates_eq, Option.some.injEq] at hrun
  have hone : BitTable.get (keyNumber (keyAt b 0 hfirst)).toNat cache = 1 := by
    rw [← hrun, ← hkeys]
    refine BitTable.get_put_self _ 1 _ (layerBits_le b) (keyNumber_row _) ?_
    have hkind := b.layerBits_kind
    rcases hkind with hk | hk | hk <;> rw [hk] <;> decide
  have hzero := hread (keyAt b 0 hfirst)
  rw [read_eq, hone] at hzero
  simp [lastLayer, hne] at hzero

theorem remembers_layers (h : Remembers b) : b.maxLayer ≤ 2 ^ b.layerBits := by
  by_contra hlarge
  have hpow : 2 ^ b.layerBits < 256 := by
    rcases b.layerBits_kind with hk | hk | hk <;> rw [hk] <;> decide
  have hvalue : (BitVec.ofNat 8 (2 ^ b.layerBits)).toNat = 2 ^ b.layerBits := by
    rw [BitVec.toNat_ofNat]
    exact Nat.mod_eq_of_lt hpow
  have hfirst : 0 < b.rows * b.cols := Nat.mul_pos b.rows_pos b.cols_pos
  obtain ⟨cache, hrun, hread⟩ := h [(keyAt b 0 hfirst, BitVec.ofNat 8 (2 ^ b.layerBits))] (by
    intro u hu
    rw [List.mem_singleton.mp hu, hvalue]
    omega)
  have hlast := hread (keyAt b 0 hfirst)
  -- The bit above those of the layer state is never stored.
  have hbit : ((BitTable.get (keyNumber (keyAt b 0 hfirst)).toNat cache).getLsbD b.layerBits) =
      false := by
    rw [BitTable.get_getLsbD _ _ _ (layerBits_le b)]
    simp
  rw [read_eq, Option.some.injEq, lastLayer_self] at hlast
  rw [hlast] at hbit
  have hset : (BitVec.ofNat 8 (2 ^ b.layerBits)).getLsbD b.layerBits := by
    rcases b.layerBits_kind with hk | hk | hk <;> rw [hk] <;> decide
  rw [hset] at hbit
  exact Bool.noConfusion hbit

/-- Every key is read as it was last updated exactly when the matrix has at most
    256 keys and every layer a name, or there is but one layer. -/
theorem remembers_iff (b : LayerBuild) :
    Remembers b ↔
      b.maxLayer ≤ 1 ∨ (b.rows * b.cols ≤ 256 ∧ b.maxLayer ≤ 2 ^ b.layerBits) := by
  constructor
  · intro h
    by_cases hlayer : b.maxLayer ≤ 1
    · exact Or.inl hlayer
    · exact Or.inr ⟨remembers_fit (by omega) h, remembers_layers h⟩
  · rintro (h | h)
    · exact remembers_zero h
    · exact remembers_apart h.1 h.2

def seventeenRows : LayerBuild :=
  { rows := 17, cols := 16, layerBits := 5, maxLayer := 32, rows_pos := by decide,
    cols_pos := by decide, rows_le := by decide, cols_le := by decide,
    layerBits_kind := by decide }

/-- The first key of the seventeenth row is pressed on layer one, and the first
    key of the first row is then said to have been. -/
theorem remembers_broken : ¬ ∀ b : LayerBuild, Remembers b := by
  intro h
  obtain ⟨cache, hrun, hread⟩ := h seventeenRows
    [(⟨⟨16, by decide⟩, ⟨0, by decide⟩⟩, 1)] (by decide)
  have hzero := hread ⟨⟨0, by decide⟩, ⟨0, by decide⟩⟩
  have hone : (updates (empty seventeenRows) [(⟨⟨16, by decide⟩, ⟨0, by decide⟩⟩, 1)]).bind
      (read ⟨⟨0, by decide⟩, ⟨0, by decide⟩⟩) = some 1 := by decide +kernel
  rw [hrun, Option.bind_some, hzero] at hone
  exact absurd hone (by decide)

/-! ### The K530 -/

def k530 : LayerBuild :=
  { rows := 5, cols := 14, layerBits := 5, maxLayer := 32, rows_pos := by decide,
    cols_pos := by decide, rows_le := by decide, cols_le := by decide,
    layerBits_kind := by decide }

theorem keyNumber_k530 (key : MatrixKey k530) :
    (keyNumber key).toNat = (KeyPos.mk key.row key.col).number := by
  unfold keyNumber
  rw [BitVec.toNat_ofNat]
  exact Nat.mod_eq_of_lt (Nat.lt_trans (KeyPos.mk key.row key.col).number_lt (by decide))

theorem update_k530 (key : MatrixKey k530) (layer : Byte) (cache : k530.Cache) :
    update key layer cache =
      some (Layers.updateSourceLayersCache ⟨key.row, key.col⟩ layer cache) := by
  have hput := congrArg (fun slot => BitTable.put slot layer cache) (keyNumber_k530 key)
  have hsource := Layers.updateSourceLayersCache_eq ⟨key.row, key.col⟩ layer cache
  exact (update_eq key layer cache).trans (congrArg some (hput.trans hsource.symm))

theorem read_k530 (key : MatrixKey k530) (cache : k530.Cache) :
    read key cache = some (Layers.readSourceLayersCache ⟨key.row, key.col⟩ cache) := by
  have hget := congrArg (fun slot => BitTable.get slot cache) (keyNumber_k530 key)
  have hsource := Layers.readSourceLayersCache_eq ⟨key.row, key.col⟩ cache
  exact (read_eq key cache).trans (congrArg some (hget.trans hsource.symm))

end LayerBuild

end K530
