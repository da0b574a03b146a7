import K530.Lib.Run

/-!
# Flash

A flash memory is erased as a whole and programmed a word at a time. An erased
word is blank, and only a blank word may be programmed.

A device keeps what has been asked of it, so that a cut of the power is a device
that has done only the first few of these operations. `Clean` is a device that
has never been asked to program a word that was not blank.

## Main definitions

* `Op`: Erase, or program a word.
* `Device`: The words, and the operations so far.
* `Clean`: Every word was blank when it was programmed.
* `Since`: One device is another after some operations.
* `Device.cut`: The device after the first few of its operations since another.
* `NoErase`: Some operations that erase nothing.

## Theorems

* `Clean.erase`, `Clean.program`: The operations of a clean device.
* `Since.trans`: Some operations and then some more.
* `Since.cut_all`: A cut after all of the operations.
* `cut_trans`: A cut in some operations and then some more.
-/

namespace Flash

open StepRun

universe u

variable {ω : Type u}

/-- An operation on the flash. -/
inductive Op (ω : Type u) where
  | erase
  | program (place : Nat) (value : ω)
  deriving DecidableEq

/-- What it does. -/
def apply (blank : ω) (words : Nat → ω) : Op ω → Nat → ω
  | .erase => fun _ => blank
  | .program place value => Function.update words place value

/-- It programs a blank word, if any. -/
def OnBlank (blank : ω) (words : Nat → ω) : Op ω → Prop
  | .erase => True
  | .program place _ => words place = blank

/-- The words, and the operations so far, oldest first. Nothing reads these. -/
structure Device (ω : Type u) where
  words : Nat → ω
  issued : List (Op ω)

namespace Device

/-- A device that has been erased when it was made. -/
def new (blank : ω) : Device ω := { words := fun _ => blank, issued := [] }

def issue (blank : ω) (op : Op ω) (d : Device ω) : Device ω :=
  { words := apply blank d.words op, issued := d.issued ++ [op] }

def erase (blank : ω) (d : Device ω) : Device ω := d.issue blank .erase

def program (blank : ω) (place : Nat) (value : ω) (d : Device ω) : Device ω :=
  d.issue blank (.program place value)

@[simp] theorem words_erase (blank : ω) (d : Device ω) (i : Nat) :
    (d.erase blank).words i = blank := rfl

@[simp] theorem words_program (blank : ω) (place : Nat) (value : ω) (d : Device ω) :
    (d.program blank place value).words = Function.update d.words place value := rfl

end Device

/-- Every word was blank when it was programmed, and the words are what the
    operations have made them. -/
structure Clean (blank : ω) (d : Device ω) : Prop where
  words : d.words = run (apply blank) (fun _ => blank) d.issued
  onBlank : Along (apply blank) (OnBlank blank) (fun _ => blank) d.issued

theorem clean_new (blank : ω) : Clean blank (.new blank) := ⟨rfl, trivial⟩

theorem Clean.issue {blank : ω} {d : Device ω} (h : Clean blank d) {op : Op ω}
    (hop : OnBlank blank d.words op) : Clean blank (d.issue blank op) where
  words := by
    unfold Device.issue
    rw [run_concat, ← h.words]
  onBlank := by
    unfold Device.issue
    rw [along_append, ← h.words]
    exact ⟨h.onBlank, hop, trivial⟩

theorem Clean.erase {blank : ω} {d : Device ω} (h : Clean blank d) :
    Clean blank (d.erase blank) := h.issue trivial

theorem Clean.program {blank : ω} {d : Device ω} (h : Clean blank d) {place : Nat} {value : ω}
    (hplace : d.words place = blank) : Clean blank (d.program blank place value) :=
  h.issue hplace

/-- The second device is the first after some more operations. -/
structure Since (blank : ω) (d d' : Device ω) (ops : List (Op ω)) : Prop where
  issued : d'.issued = d.issued ++ ops
  words : d'.words = run (apply blank) d.words ops

theorem since_refl (blank : ω) (d : Device ω) : Since blank d d [] :=
  ⟨(List.append_nil _).symm, rfl⟩

theorem Since.trans {blank : ω} {d d' d'' : Device ω} {ops ops' : List (Op ω)}
    (h : Since blank d d' ops) (h' : Since blank d' d'' ops') :
    Since blank d d'' (ops ++ ops') where
  issued := by rw [h'.issued, h.issued, List.append_assoc]
  words := by rw [h'.words, h.words, run_append]

theorem since_issue (blank : ω) (op : Op ω) (d : Device ω) :
    Since blank d (d.issue blank op) [op] := ⟨rfl, rfl⟩

/-- What has been asked of the second device since the first. -/
def Device.since (d d' : Device ω) : List (Op ω) := d'.issued.drop d.issued.length

/-- The first device after the first few of these operations. -/
def Device.cut (blank : ω) (k : Nat) (d d' : Device ω) : Device ω :=
  { words := run (apply blank) d.words ((d.since d').take k),
    issued := d.issued ++ (d.since d').take k }

theorem Since.since_eq {blank : ω} {d d' : Device ω} {ops : List (Op ω)}
    (h : Since blank d d' ops) : d.since d' = ops := by
  unfold Device.since
  rw [h.issued, List.drop_left]

theorem Since.cut_all {blank : ω} {d d' : Device ω} {ops : List (Op ω)}
    (h : Since blank d d' ops) {k : Nat} (hk : ops.length ≤ k) : d.cut blank k d' = d' := by
  unfold Device.cut
  rw [h.since_eq, List.take_of_length_le hk, ← h.words, ← h.issued]

theorem cut_zero (blank : ω) (d d' : Device ω) : d.cut blank 0 d' = d := by
  unfold Device.cut
  rw [List.take_zero, List.append_nil]
  rfl

theorem cut_trans {blank : ω} {d d' d'' : Device ω} {ops ops' : List (Op ω)}
    (h : Since blank d d' ops) (h' : Since blank d' d'' ops') (k : Nat) :
    d.cut blank k d'' =
      if k ≤ ops.length then d.cut blank k d' else d'.cut blank (k - ops.length) d'' := by
  unfold Device.cut
  rw [h.since_eq, h'.since_eq, (h.trans h').since_eq]
  split
  next hk => rw [List.take_append_of_le_length hk]
  next hk =>
    rw [List.take_append, List.take_of_length_le (by omega), run_append, ← h.words,
      ← List.append_assoc, ← h.issued]

/-- It has not been asked to erase. -/
def NoErase (ops : List (Op ω)) : Prop := ∀ op ∈ ops, op ≠ .erase

instance decidableNoErase [DecidableEq ω] (ops : List (Op ω)) : Decidable (NoErase ops) :=
  inferInstanceAs (Decidable (∀ op ∈ ops, op ≠ .erase))

end Flash
