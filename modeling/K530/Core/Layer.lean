import K530.Core.Usb
import K530.Lib.Checked

/-!
# Layers

Which layers are on, and which layer a held key was pressed on.

A key is looked up on the highest layer that is on and has something other than
transparent there. Its release must find what its press found, though the
layers may have changed in between, so the layer of every press is remembered.
The source keeps one bit of each key's layer in each of five bit tables; so
does the model.

Turning a layer on or off sends a report. The keys and the real modifiers stay
in it; the weak ones are cleared.

## Main definitions

* `KeyPos`: A matrix position.

## Theorems

* `read_update_self`: What is remembered for a key is recalled.
* `read_update_other`: Remembering one key's layer leaves the others' alone.
-/

namespace K530

/-- A matrix position: one of `MATRIX_ROWS` rows and `MATRIX_COLS` columns. -/
structure KeyPos where
  row : Fin 5
  col : Fin 14
  deriving DecidableEq

/-- A literal names a row or a column. -/
instance neZeroRows : NeZero 5 := ⟨by decide⟩

instance neZeroCols : NeZero 14 := ⟨by decide⟩

/-- `key_number`, the position in the cache. -/
def KeyPos.number (key : KeyPos) : Nat := key.col.val + key.row.val * 14

theorem KeyPos.number_lt (key : KeyPos) : key.number < 70 := by
  unfold KeyPos.number
  have hrow := key.row.isLt
  have hcol := key.col.isLt
  omega

theorem KeyPos.number_inj (a b : KeyPos) (h : a.number = b.number) : a = b := by
  unfold KeyPos.number at h
  have hca := a.col.isLt
  have hcb := b.col.isLt
  cases a with
  | mk ra ca =>
    cases b with
    | mk rb cb =>
      dsimp only at h hca hcb
      rw [KeyPos.mk.injEq, Fin.ext_iff, Fin.ext_iff]
      omega

/-- `source_layers_cache`: for every eight keys, a byte for each of
    `MAX_LAYER_BITS` bits of their layers. -/
abbrev SourceLayers := Vector (Vector Byte 5) 9

structure Layers where
  /-- `layer_state` -/
  state : BitVec 32
  /-- `default_layer_state` -/
  default : BitVec 32
  /-- `source_layers_cache` -/
  source : SourceLayers
  deriving DecidableEq

namespace Layers

def init : Layers :=
  { state := 0, default := 0, source := Vector.replicate 9 (Vector.replicate 5 0) }

theorem storageRow_lt (key : KeyPos) : key.number / 8 < 9 := by
  have h := key.number_lt
  omega

/-- One byte of the cache with the bit of one key made to follow `on`. -/
def storeBit (on : Bool) (storageBit : Nat) (byte : Byte) : Byte :=
  byte ^^^ (((if on then 0xFF else 0x00) ^^^ byte) &&& 1#8 <<< storageBit)

def storageRow (key : KeyPos) (source : SourceLayers) : Vector Byte 5 :=
  have _ := storageRow_lt key
  source[key.number / 8]

def updateSourceLayersCache (key : KeyPos) (layer : Byte) (source : SourceLayers) :
    SourceLayers :=
  source.set (key.number / 8)
    ((storageRow key source).mapIdx
      (fun bitNumber byte => storeBit (layer.getLsbD bitNumber) (key.number % 8) byte))
    (storageRow_lt key)

def readSourceLayersCache (key : KeyPos) (source : SourceLayers) : Byte :=
  (List.finRange 5).foldl (fun layer bitNumber =>
    layer ||| (if (storageRow key source)[bitNumber].getLsbD (key.number % 8) then 1#8 else 0#8) <<<
      bitNumber.val) 0

theorem storageRow_eq (key : KeyPos) (source : SourceLayers) :
    storageRow key source = BitTable.row source key.number := by
  have hrow : key.number / 8 < source.toList.length := by
    simp only [Vector.length_toList, storageRow_lt]
  unfold storageRow BitTable.row
  rw [List.getD_eq_getElem?_getD, List.getElem?_eq_getElem hrow]
  rfl

theorem updateSourceLayersCache_eq (key : KeyPos) (layer : Byte) (source : SourceLayers) :
    updateSourceLayersCache key layer source = BitTable.put key.number layer source := by
  unfold updateSourceLayersCache BitTable.put
  rw [storageRow_eq]
  refine Vector.ext (fun i hi => ?_)
  simp only [Vector.getElem_set, Vector.getElem_setIfInBounds]
  rfl

theorem readSourceLayersCache_eq (key : KeyPos) (source : SourceLayers) :
    readSourceLayersCache key source = BitTable.get key.number source := by
  have hindices : List.range 5 = (List.finRange 5).map Fin.val := rfl
  unfold readSourceLayersCache BitTable.get BitTable.bitAt
  rw [hindices, List.foldl_map, storageRow_eq]
  refine congrArg (fun f => List.foldl f 0 (List.finRange 5)) ?_
  funext layer n
  have hbyte : (BitTable.row source key.number).toList.getD n.val 0 =
      (BitTable.row source key.number)[n] := by
    simp [List.getD_eq_getElem?_getD]
  rw [hbyte]

/-- What is remembered for a key is recalled. -/
theorem read_update_self (key : KeyPos) (layer : Byte) (source : SourceLayers)
    (h : layer.toNat < 32) :
    readSourceLayersCache key (updateSourceLayersCache key layer source) = layer := by
  rw [updateSourceLayersCache_eq, readSourceLayersCache_eq]
  exact BitTable.get_put_self key.number layer source (by omega) (storageRow_lt key) h

/-- Remembering one key's layer leaves the others' alone. -/
theorem read_update_other (key other : KeyPos) (layer : Byte) (source : SourceLayers)
    (h : key ≠ other) :
    readSourceLayersCache other (updateSourceLayersCache key layer source) =
      readSourceLayersCache other source := by
  have hslot : key.number ≠ other.number := by
    intro heq
    exact h (KeyPos.number_inj key other heq)
  rw [updateSourceLayersCache_eq, readSourceLayersCache_eq, readSourceLayersCache_eq]
  exact BitTable.get_put_other _ _ layer source (by omega) (storageRow_lt key) hslot

/-- `layer_switch_get_layer`: the highest layer that is on and not transparent
    at the key, and layer 0 if there is none. -/
def highestLayer (transparent : Nat → Bool) (layers : Layers) : Nat :=
  ((List.range 32).reverse.find? (fun i =>
    (layers.state ||| layers.default).getLsbD i && !transparent i)).getD 0

theorem highestLayer_lt (transparent : Nat → Bool) (layers : Layers) :
    highestLayer transparent layers < 32 := by
  unfold highestLayer
  cases hfind : (List.range 32).reverse.find? (fun i =>
      (layers.state ||| layers.default).getLsbD i && !transparent i) with
  | none => exact Nat.zero_lt_succ 31
  | some i =>
    have hmem := List.mem_of_find?_eq_some hfind
    rw [List.mem_reverse, List.mem_range] at hmem
    exact hmem

end Layers

/-!
### The Source-Layer Cache

`source_layers_cache` as it is for any matrix and any width of the layer state.
Eight keys share a byte, and a byte holds one bit of each of their layers.

A key is found by its number, which is kept in eight bits. A matrix may have
more than 256 keys, and the numbers of those beyond begin again at zero.

Accesses to the cache are checked: one outside it has no result.
-/

open Checked

structure LayerBuild where
  /-- `MATRIX_ROWS` -/
  rows : Nat
  /-- `MATRIX_COLS` -/
  cols : Nat
  /-- `MAX_LAYER_BITS` -/
  layerBits : Nat
  /-- `MAX_LAYER`, which the keyboard may define -/
  maxLayer : Nat
  rows_pos : 0 < rows
  cols_pos : 0 < cols
  rows_le : rows ≤ 255
  cols_le : cols ≤ 255
  /-- A layer state has 8, 16 or 32 bits. -/
  layerBits_kind : layerBits = 3 ∨ layerBits = 4 ∨ layerBits = 5

/-- `keypos_t`, within the matrix. -/
structure MatrixKey (b : LayerBuild) where
  row : Fin b.rows
  col : Fin b.cols
  deriving DecidableEq

namespace LayerBuild

variable {b : LayerBuild}

/-- The number of rows of `source_layers_cache`. -/
def cacheRows (b : LayerBuild) : Nat := (b.rows * b.cols + 7) / 8

/-- `source_layers_cache`. -/
abbrev Cache (b : LayerBuild) := Vector (Vector Byte b.layerBits) b.cacheRows

def keyNumber (key : MatrixKey b) : Byte :=
  -- A `uint8_t`, so that the number begins again after 256 keys.
  BitVec.ofNat 8 (key.col.val + key.row.val * b.cols)

/-- `update_source_layers_cache`. -/
def update (key : MatrixKey b) (layer : Byte) (cache : b.Cache) : Option b.Cache :=
  let storageRow := (keyNumber key).toNat / 8
  let storageBit := (keyNumber key).toNat % 8
  (fetch cache storageRow).bind (fun row =>
    store cache storageRow
      (row.mapIdx (fun bitNumber byte =>
        Layers.storeBit (layer.getLsbD bitNumber) storageBit byte)))

/-- `read_source_layers_cache`. -/
def read (key : MatrixKey b) (cache : b.Cache) : Option Byte :=
  let storageRow := (keyNumber key).toNat / 8
  let storageBit := (keyNumber key).toNat % 8
  (fetch cache storageRow).map (fun row =>
    (List.range b.layerBits).foldl (fun layer bitNumber =>
      layer ||| (if (row.toList.getD bitNumber 0).getLsbD storageBit then 1#8 else 0#8) <<<
        bitNumber) 0)

def empty (b : LayerBuild) : b.Cache :=
  Vector.replicate b.cacheRows (Vector.replicate b.layerBits 0)

def updates (cache : b.Cache) : List (MatrixKey b × Byte) → Option b.Cache
  | [] => some cache
  | u :: us => (update u.1 u.2 cache).bind (fun cache => updates cache us)

/-- The layer of the last update of a key, zero if there is none. -/
def lastLayer (key : MatrixKey b) (us : List (MatrixKey b × Byte)) : Byte :=
  us.foldl (fun layer u => if u.1 = key then u.2 else layer) 0

end LayerBuild

end K530
