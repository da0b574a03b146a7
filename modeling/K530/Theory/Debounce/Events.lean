import K530.Theory.Debounce.Deferred
import K530.Theory.Quantum.KeyboardTask

/-!
# From a Bouncing Key to Its Events

A contact bounces, and no event should come of that. `sym_defer_pk.c` takes a key over when it
has been scanned the same for `DEBOUNCE`, and `keyboard_task` makes an event of it, perhaps some
calls later. So what has come of a key lags behind what it has been taken to be, and both are
presses and releases in turn: the events are the first of the flips (`flips_of_scans`). Each flip
has a window of its own, since the last scan of the window before it is one that does not differ
(`behind_used`).

When the keys no longer change the debounced matrix is the scanned one after that time, and then
every call takes one from those that differ.

## Main definitions

* `Earned`: Each of the values was there for as long as it has to be.

## Theorems

* `settled_of_steady`: The debounced matrix, when nothing changes.
* `debounced_key_events`: Over every run.
-/

namespace K530

variable {s : MatrixShape}

/-- Each of the values was there for `debounceTime` without a break, one after the other. -/
inductive Earned (debounceTime : Nat) : List (Nat × Bool) → List Bool → Prop
  | none (samples : List (Nat × Bool)) : Earned debounceTime samples []
  | next {before middle after : List (Nat × Bool)} {values : List Bool} {first last : Nat}
      {value : Bool} (earlier : Earned debounceTime before values)
      (steady : ∀ x ∈ middle, x.2 = value) (long : debounceTime ≤ last - first) :
      Earned debounceTime (before ++ (first, value) :: middle ++ (last, value) :: after)
        (values ++ [value])

/-- What comes of keys that bounce. Every event of a key has a time of its own in which the
    key was scanned as the event says for `DEBOUNCE` without a break. And when all keys stay as
    they are for that long, as many calls later as there are keys the last event of each is what
    it is. -/
structure DebouncedEvents (s : MatrixShape) (debounceTime : Byte) : Prop where
  earned : ∀ scans : List (MatrixScan s.rows s.cols), Timed (scans.map MatrixScan.time) →
    ∀ key : s.Key, Earned debounceTime.toNat (keySamples key scans)
      (keyHistory key (eventsOf (scannedCalls debounceTime scans)))
  settles : ∀ (before steady during : List (MatrixScan s.rows s.cols))
    (first : MatrixScan s.rows s.cols) (raw : KeyMatrix s.rows s.cols),
    Timed ((before ++ [first] ++ steady ++ during).map MatrixScan.time) →
      first.raw = raw → (∀ scan ∈ steady ++ during, scan.raw = raw) →
        (∃ scan ∈ steady, debounceTime.toNat ≤ scan.time - first.time) →
          during.length = s.rows * s.cols → ∀ key : s.Key, raw.keys key = true ↔
            (keyHistory key (eventsOf (scannedCalls debounceTime
              (before ++ [first] ++ steady ++ during)))).getLast? = some true

theorem getLsbD_rowBits (row : Fin s.cols → Bool) (cols : List (Fin s.cols)) (i : Nat) :
    ∀ bits : BitVec s.width,
      (cols.foldl (fun bits col => if row col then bits ||| colMask s col else bits)
        bits).getLsbD i = (bits.getLsbD i || cols.any (fun col => row col && col.val == i)) := by
  induction cols with
  | nil => simp
  | cons col cols ih =>
    intro bits
    rw [List.foldl_cons, ih, List.any_cons]
    cases row col with
    | false => simp
    | true =>
      rw [if_pos rfl, BitVec.getLsbD_or, getLsbD_colMask, Bool.or_assoc, Bool.true_and,
        beq_eq_decide]

theorem isDown_rowBits (m : KeyMatrix s.rows s.cols) (key : s.Key) :
    isDown (rowBits m) key = m.keys key := by
  have hzero : (0 : BitVec s.width).getLsbD key.2.val = false := BitVec.getLsbD_zero
  unfold isDown rowBits KeyMatrix.keys
  rw [getLsbD_rowBits, hzero, Bool.false_or, Bool.eq_iff_iff, List.any_eq_true]
  constructor
  · rintro ⟨col, _, hcol⟩
    rw [Bool.and_eq_true, beq_iff_eq] at hcol
    rw [← Fin.ext hcol.2]
    exact hcol.1
  · intro hkey
    exact ⟨key.2, List.mem_finRange _, by rw [hkey, beq_self_eq_true]; rfl⟩

theorem alternates_shorter {b : Bool} {xs ys : List Bool} (hxs : alternates b xs)
    (hys : alternates b ys) (hle : xs.length ≤ ys.length) : xs <+: ys := by
  induction xs generalizing b ys with
  | nil => exact List.nil_prefix
  | cons x xs ih =>
    cases ys with
    | nil => exact absurd hle (by simp)
    | cons y ys =>
      rw [alternates, Bool.and_eq_true, beq_iff_eq] at hxs hys
      rw [List.cons_prefix_cons]
      exact ⟨hxs.1.trans hys.1.symm, ih hxs.2 hys.2 (Nat.le_of_succ_le_succ hle)⟩

namespace Earned

variable {debounceTime : Nat} {samples : List (Nat × Bool)} {values : List Bool}

theorem more (h : Earned debounceTime samples values) (later : List (Nat × Bool)) :
    Earned debounceTime (samples ++ later) values := by
  cases h with
  | none => exact .none _
  | next earlier steady long =>
    rw [List.append_assoc, List.cons_append]
    exact .next earlier steady long

theorem fewer (h : Earned debounceTime samples values) {first : List Bool}
    (hfirst : first <+: values) : Earned debounceTime samples first := by
  induction h with
  | none =>
    rw [List.prefix_nil.mp hfirst]
    exact .none _
  | next earlier steady long ih =>
    rcases List.prefix_concat_iff.mp hfirst with rfl | hfirst
    · exact .next earlier steady long
    · rw [List.append_assoc]
      exact (ih hfirst).more _

end Earned

theorem firstDiffering_steady {value : Bool} {samples : List (Nat × Bool)} {start : Nat}
    (h : firstDiffering value samples = some start) : ∃ before middle,
      samples = before ++ (start, !value) :: middle ∧ ∀ x ∈ middle, x.2 = !value := by
  induction samples using List.reverseRecOn with
  | nil => exact absurd h (by simp [firstDiffering])
  | append_singleton samples x ih =>
    rw [firstDiffering_concat] at h
    by_cases hx : x.2 ≠ value
    · rw [if_pos hx, Option.some.injEq] at h
      have hvalue : x.2 = !value := Bool.eq_not_of_ne hx
      cases hfirst : firstDiffering value samples with
      | none =>
        rw [hfirst] at h
        subst h
        exact ⟨samples, [], by rw [← hvalue]; rfl, by simp⟩
      | some t =>
        rw [hfirst] at h
        subst h
        obtain ⟨before, middle, hsamples, hsteady⟩ := ih hfirst
        refine ⟨before, middle ++ [x], ?_, fun y hy => ?_⟩
        · rw [hsamples, List.append_assoc]
          rfl
        · rcases List.mem_append.mp hy with hy | hy
          · exact hsteady y hy
          · rw [List.mem_singleton.mp hy, hvalue]
    · rw [if_neg hx] at h
      cases h

section

variable {debounceTime : Byte}

theorem scannedCalls_concat (debounceTime : Byte) (scans : List (MatrixScan s.rows s.cols))
    (scan : MatrixScan s.rows s.cols) : ∃ call : TaskCall s,
      scannedCalls debounceTime (scans ++ [scan]) = scannedCalls debounceTime scans ++ [call] ∧
      call.matrix = rowBits (symDeferPk debounceTime (scans ++ [scan])) ∧
      call.shouldProcessKeypress = true := by
  have hafter : ∀ d : Debounced (Deferred s.Key) s.Key Bool,
      StepRun.run (StepRun.next (scanCall debounceTime)) d scans =
        (scans.map MatrixScan.byKey).foldl (Deferred.call debounceTime) d := by
    intro d
    rw [List.foldl_map]
    rfl
  refine ⟨_, StepRun.trace_append .., ?_, rfl⟩
  change rowBits (fun row col => (Deferred.call debounceTime (StepRun.run
    (StepRun.next (scanCall debounceTime)) _ scans) scan.byKey).state.cooked (row, col)) = _
  rw [hafter, symDeferPk, List.map_append, List.foldl_append]
  rfl

theorem scannedCalls_process (debounceTime : Byte) (scans : List (MatrixScan s.rows s.cols)) :
    ∀ call ∈ scannedCalls debounceTime scans, call.shouldProcessKeypress = true := by
  induction scans using List.reverseRecOn with
  | nil => simp [scannedCalls, StepRun.trace]
  | append_singleton scans scan ih =>
    obtain ⟨call, hcalls, _, hprocess⟩ := scannedCalls_concat debounceTime scans scan
    rw [hcalls]
    intro c hc
    rcases List.mem_append.mp hc with hc | hc
    · exact ih c hc
    · rw [List.mem_singleton.mp hc]
      exact hprocess

theorem symDeferPk_flips (hpos : debounceTime ≠ 0) (scans : List (MatrixScan s.rows s.cols))
    (scan : MatrixScan s.rows s.cols) (htimed : Timed ((scans ++ [scan]).map MatrixScan.time))
    (key : s.Key) :
    (symDeferPk debounceTime (scans ++ [scan])).keys key ≠
        (symDeferPk debounceTime scans).keys key ↔
      ∃ start, firstDiffering ((symDeferPk debounceTime scans).keys key)
        (keySamples key scans ++ [(scan.time, scan.raw.keys key)]) = some start ∧
          debounceTime.toNat ≤ scan.time - start := by
  have hbyKey : Timed ((scans.map MatrixScan.byKey ++ [scan.byKey]).map DebounceCall.time) := by
    rwa [← List.map_singleton, ← List.map_append, List.map_map]
  have hlaw := Deferred.law debounceTime hpos _ scan.byKey hbyKey key
  rw [Deferred.samples_concat, ← List.map_singleton, ← List.map_append] at hlaw
  have hsamples : Deferred.samples key (scans.map MatrixScan.byKey) = keySamples key scans := by
    unfold Deferred.samples keySamples
    rw [List.map_map]
    rfl
  rw [hsamples] at hlaw
  exact hlaw

theorem behind_used {used rest before window : List (Nat × Bool)} {value : Bool}
    (h : used ++ rest = before ++ window) (hused : ∀ x ∈ used.getLast?, x.2 = value)
    (hwindow : ∀ x ∈ window, x.2 = !value) : ∃ more, before = used ++ more := by
  rcases List.append_eq_append_iff.mp h with ⟨more, hmore, _⟩ | ⟨extra, hextra, hrest⟩
  · exact ⟨more, hmore⟩
  · rcases List.eq_nil_or_concat extra with rfl | ⟨front, x, rfl⟩
    · exact ⟨[], by rw [hextra, List.append_nil, List.append_nil]⟩
    · -- The last one used would be in the window.
      have hvalue := hused x (by rw [hextra]; simp)
      have hother := hwindow x (by rw [hrest]; simp)
      rw [hvalue] at hother
      exact absurd hother (by simp)

/-- What a key has come to in turn. -/
structure Flips (debounceTime : Byte) (key : s.Key) (scans : List (MatrixScan s.rows s.cols))
    (flips : List Bool) : Prop where
  earned : ∃ used rest, keySamples key scans = used ++ rest ∧
    Earned debounceTime.toNat used flips ∧
      ∀ x ∈ used.getLast?, x.2 = (symDeferPk debounceTime scans).keys key
  alternate : alternates true flips
  last : (symDeferPk debounceTime scans).keys key = flips.getLast?.elim false (fun last => last)
  shown : (keyHistory key (eventsOf (scannedCalls debounceTime scans))).length ≤ flips.length

variable {key : s.Key} {scans : List (MatrixScan s.rows s.cols)} {flips : List Bool}

theorem flip_window (hpos : debounceTime ≠ 0) (scan : MatrixScan s.rows s.cols)
    (htimed : Timed ((scans ++ [scan]).map MatrixScan.time)) {value : Bool}
    (hvalue : (symDeferPk debounceTime scans).keys key = value)
    (hflip : (symDeferPk debounceTime (scans ++ [scan])).keys key = !value) :
    ∃ before middle start, keySamples key scans = before ++ (start, !value) :: middle ∧
      scan.raw.keys key = !value ∧ (∀ x ∈ middle, x.2 = !value) ∧
        debounceTime.toNat ≤ scan.time - start := by
  have hne : (symDeferPk debounceTime (scans ++ [scan])).keys key ≠
      (symDeferPk debounceTime scans).keys key := by
    rw [hflip, hvalue]
    simp
  obtain ⟨start, hfirst, hlong⟩ := (symDeferPk_flips hpos scans scan htimed key).mp hne
  rw [hvalue] at hfirst
  obtain ⟨before, middle, hwindow, hsteady⟩ := firstDiffering_steady hfirst
  rcases List.eq_nil_or_concat middle with rfl | ⟨front, x, rfl⟩
  · -- The last sample alone has not been there for any time.
    have hsame := (List.append_inj' hwindow rfl).2
    rw [List.singleton_inj, Prod.mk.injEq] at hsame
    rw [hsame.1, Nat.sub_self, Nat.le_zero, ← BitVec.toNat_zero, ← BitVec.toNat_eq] at hlong
    exact absurd hlong hpos
  · rw [List.concat_eq_append, ← List.cons_append, ← List.append_assoc] at hwindow
    obtain ⟨hfront, hsame⟩ := List.append_inj' hwindow rfl
    have hx := hsteady x (by simp)
    rw [List.singleton_inj] at hsame
    rw [← hsame] at hx
    exact ⟨before, front, start, hfront, hx, fun y hy => hsteady y (by simp [hy]), hlong⟩

/-- A scan in which the key does not flip, or flips to the value it has been scanned with. -/
theorem Flips.debounce (h : Flips debounceTime key scans flips) (hpos : debounceTime ≠ 0)
    (scan : MatrixScan s.rows s.cols) (htimed : Timed ((scans ++ [scan]).map MatrixScan.time)) :
    ∃ flips', flips <+: flips' ∧ (∃ used rest, keySamples key (scans ++ [scan]) = used ++ rest ∧
      Earned debounceTime.toNat used flips' ∧
        ∀ x ∈ used.getLast?, x.2 = (symDeferPk debounceTime (scans ++ [scan])).keys key) ∧
      alternates true flips' ∧
      (symDeferPk debounceTime (scans ++ [scan])).keys key =
        flips'.getLast?.elim false (fun last => last) := by
  obtain ⟨used, rest, hsamples, hearned, hused⟩ := h.earned
  have hnext : keySamples key (scans ++ [scan]) =
      keySamples key scans ++ [(scan.time, scan.raw.keys key)] := List.map_append
  by_cases hflip : (symDeferPk debounceTime (scans ++ [scan])).keys key ≠
      (symDeferPk debounceTime scans).keys key
  · have hvalue := Bool.eq_not_of_ne hflip
    obtain ⟨before, middle, start, hfront, hraw, hsteady, hlong⟩ :=
      flip_window hpos scan htimed rfl hvalue
    have hlast := h.last
    rw [hvalue]
    generalize (symDeferPk debounceTime scans).keys key = value at *
    refine ⟨flips ++ [!value], List.prefix_append _ _,
      ⟨keySamples key (scans ++ [scan]), [], (List.append_nil _).symm, ?_, ?_⟩, ?_, ?_⟩
    · have hsplit : used ++ rest = before ++ (start, !value) :: middle :=
        hsamples.symm.trans hfront
      have hwhole : ∀ x ∈ (start, !value) :: middle, x.2 = !value := by
        intro x hx
        rcases List.mem_cons.mp hx with rfl | hx
        · rfl
        · exact hsteady x hx
      obtain ⟨more, rfl⟩ := behind_used hsplit hused hwhole
      rw [hnext, hfront, hraw]
      exact .next (hearned.more more) hsteady hlong
    · intro x hx
      rw [hnext, List.getLast?_concat] at hx
      rw [← Option.some.inj hx, hraw]
    · rw [alternates_concat, h.alternate, Bool.true_and, beq_iff_eq, hlast]
      cases flips.getLast? <;> rfl
    · rw [List.getLast?_concat]
      rfl
  · rw [not_not.mp hflip]
    refine ⟨flips, List.prefix_rfl, ⟨used, rest ++ [(scan.time, scan.raw.keys key)], ?_, hearned,
      hused⟩, h.alternate, h.last⟩
    rw [hnext, hsamples, List.append_assoc]

theorem flips_of_scans (hpos : debounceTime ≠ 0) (scans : List (MatrixScan s.rows s.cols))
    (htimed : Timed (scans.map MatrixScan.time)) (key : s.Key) :
    ∃ flips, Flips debounceTime key scans flips := by
  induction scans using List.reverseRecOn with
  | nil =>
    exact ⟨[], ⟨[], [], rfl, .none _, by simp⟩, rfl, rfl, Nat.le_refl 0⟩
  | append_singleton scans scan ih =>
    obtain ⟨flips, h⟩ := ih (timed_next MatrixScan.time scans scan htimed).1
    obtain ⟨flips', hmore, hearned, halternate, hlast⟩ := h.debounce hpos scan htimed
    refine ⟨flips', hearned, halternate, hlast, ?_⟩
    obtain ⟨call, hcalls, hmatrix, hprocess⟩ := scannedCalls_concat debounceTime scans scan
    obtain ⟨hhistory, hheld⟩ := matrixPrev_held (scannedCalls debounceTime scans)
      (scannedCalls_process debounceTime scans) key
    rw [hcalls, keyHistory_concat]
    rcases keyboardTask_key (matrixPrev (scannedCalls debounceTime scans)) call hprocess key with
      ⟨hdiffers, _, hevent⟩ | ⟨_, hnone⟩
    · rw [hevent, List.length_append, List.length_singleton]
      -- With as many events as flips the last event would be the last flip.
      refine Nat.lt_of_le_of_ne (Nat.le_trans h.shown hmore.length_le) (fun hsame => hdiffers ?_)
      have heq := (alternates_shorter hhistory halternate (Nat.le_of_eq hsame)).eq_of_length hsame
      rw [hmatrix, isDown_rowBits, hlast, hheld, heq]
    · rw [hnone, List.append_nil]
      exact Nat.le_trans h.shown hmore.length_le

theorem earned_of_scans (hpos : debounceTime ≠ 0) (scans : List (MatrixScan s.rows s.cols))
    (htimed : Timed (scans.map MatrixScan.time)) (key : s.Key) :
    Earned debounceTime.toNat (keySamples key scans)
      (keyHistory key (eventsOf (scannedCalls debounceTime scans))) := by
  obtain ⟨flips, h⟩ := flips_of_scans hpos scans htimed key
  obtain ⟨used, rest, hsamples, hearned, _⟩ := h.earned
  have halternate := (matrixPrev_held _ (scannedCalls_process debounceTime scans) key).1
  rw [hsamples]
  exact (hearned.more rest).fewer (alternates_shorter halternate h.alternate h.shown)

theorem timed_le {times : List Nat} {now : Nat} (h : Timed (times ++ [now])) :
    ∀ t ∈ times, t ≤ now := by
  have hpairs : (times ++ [now]).Pairwise (· ≤ ·) :=
    List.isChain_iff_pairwise.mp (h.imp (fun _ _ hstep => hstep.1))
  exact fun t ht => (List.pairwise_append.mp hpairs).2.2 t ht now List.mem_cons_self

theorem firstDiffering_le (before : List (MatrixScan s.rows s.cols))
    (first : MatrixScan s.rows s.cols) (key : s.Key)
    (htimed : Timed ((before ++ [first]).map MatrixScan.time)) {value : Bool} {start : Nat}
    (hstart : firstDiffering value (keySamples key before) = some start) :
    start ≤ first.time := by
  -- It is the time of a scan before.
  obtain ⟨front, middle, hfront, _⟩ := firstDiffering_steady hstart
  rw [List.map_append] at htimed
  refine timed_le htimed start ?_
  have hmem : (start, !value) ∈ keySamples key before := by simp [hfront]
  obtain ⟨scan, hscan, hsample⟩ := List.mem_map.mp hmem
  exact List.mem_map.mpr ⟨scan, hscan, congrArg Prod.fst hsample⟩

/-- While the key is scanned the same it has come to that, or it is not yet time. -/
theorem steady_or_early (hpos : debounceTime ≠ 0) (before : List (MatrixScan s.rows s.cols))
    (first : MatrixScan s.rows s.cols) (key : s.Key) {value : Bool}
    (hfirst : first.raw.keys key = value) (later : List (MatrixScan s.rows s.cols))
    (htimed : Timed ((before ++ [first] ++ later).map MatrixScan.time))
    (hlater : ∀ scan ∈ later, scan.raw.keys key = value) :
    (symDeferPk debounceTime (before ++ [first] ++ later)).keys key = value ∨
      (symDeferPk debounceTime (before ++ [first] ++ later)).keys key = !value ∧
        ∃ start ≤ first.time,
          firstDiffering (!value) (keySamples key (before ++ [first] ++ later)) = some start ∧
            ∀ last ∈ later.getLast?, last.time - start < debounceTime.toNat := by
  induction later using List.reverseRecOn with
  | nil =>
    rw [List.append_nil] at htimed ⊢
    by_cases hnow : (symDeferPk debounceTime (before ++ [first])).keys key = value
    · exact .inl hnow
    · have hsamples : keySamples key (before ++ [first]) =
          keySamples key before ++ [(first.time, value)] := by
        rw [← hfirst]
        exact List.map_append
      refine .inr ⟨Bool.eq_not_of_ne hnow, _, ?_, by
        rw [hsamples, firstDiffering_concat, if_pos (by simp)], by simp⟩
      cases hstart : firstDiffering (!value) (keySamples key before) with
      | none => exact Nat.le_refl _
      | some start => exact firstDiffering_le before first key htimed hstart
  | append_singleton later scan ih =>
    rw [← List.append_assoc] at htimed ⊢
    have hscan := hlater scan (by simp)
    have hflips := symDeferPk_flips hpos _ scan htimed key
    have hsamples : keySamples key (before ++ [first] ++ later ++ [scan]) =
        keySamples key (before ++ [first] ++ later) ++ [(scan.time, value)] := by
      rw [← hscan]
      exact List.map_append
    rw [hscan] at hflips
    rcases ih (timed_next MatrixScan.time _ scan htimed).1
      (fun c hc => hlater c (List.mem_append_left _ hc)) with hnow | ⟨hnow, start, hstart, hsome, _⟩
    · rw [hnow, firstDiffering_concat, if_neg (not_not_intro rfl)] at hflips
      exact .inl (not_not.mp (fun hne => absurd (hflips.mp hne) (by simp)))
    · have hfound : firstDiffering (!value)
          (keySamples key (before ++ [first] ++ later) ++ [(scan.time, value)]) = some start := by
        rw [firstDiffering_concat, if_pos (by simp), hsome]
        rfl
      rw [hnow, hfound] at hflips
      rw [hsamples, hfound]
      by_cases hlong : debounceTime.toNat ≤ scan.time - start
      · have hflip := hflips.mpr ⟨start, rfl, hlong⟩
        exact .inl (by simpa using Bool.eq_not_of_ne hflip)
      · refine .inr ⟨not_not.mp (fun hne => ?_), start, hstart, rfl, fun last hlast => ?_⟩
        · obtain ⟨t, ht, hlong'⟩ := hflips.mp hne
          rw [← Option.some.inj ht] at hlong'
          exact hlong hlong'
        · rw [List.getLast?_concat] at hlast
          rw [← Option.some.inj hlast]
          omega

theorem settled_of_steady (hpos : debounceTime ≠ 0)
    (before steady : List (MatrixScan s.rows s.cols)) (first : MatrixScan s.rows s.cols)
    (raw : KeyMatrix s.rows s.cols)
    (htimed : Timed ((before ++ [first] ++ steady).map MatrixScan.time))
    (hfirst : first.raw = raw) (hsame : ∀ scan ∈ steady, scan.raw = raw)
    (hlong : ∃ scan ∈ steady, debounceTime.toNat ≤ scan.time - first.time) :
    symDeferPk debounceTime (before ++ [first] ++ steady) = raw := by
  obtain ⟨scan, hscan, hlong⟩ := hlong
  funext row col
  have hkey : first.raw.keys (row, col) = raw row col := by
    rw [hfirst]
    rfl
  rcases steady_or_early hpos before first (row, col) hkey steady htimed
    (fun c hc => by rw [hsame c hc]; rfl) with hnow | ⟨_, start, hstart, _, hearly⟩
  · exact hnow
  · rcases List.eq_nil_or_concat steady with rfl | ⟨front, last, rfl⟩
    · exact absurd hscan List.not_mem_nil
    · rw [List.concat_eq_append] at *
      have hshort := hearly last (by simp)
      -- The last of the scans is no earlier than the one that is late enough.
      have hle : scan.time ≤ last.time := by
        rcases List.mem_append.mp hscan with hfront | hlast
        · rw [← List.append_assoc, List.map_append] at htimed
          exact timed_le htimed _ (List.mem_map.mpr ⟨scan, by simp [hfront], rfl⟩)
        · rw [List.mem_singleton.mp hlast]
      omega

theorem scannedCalls_settled (hpos : debounceTime ≠ 0)
    (before steady : List (MatrixScan s.rows s.cols)) (first : MatrixScan s.rows s.cols)
    (raw : KeyMatrix s.rows s.cols) (hfirst : first.raw = raw)
    (hlong : ∃ scan ∈ steady, debounceTime.toNat ≤ scan.time - first.time)
    (during : List (MatrixScan s.rows s.cols))
    (htimed : Timed ((before ++ [first] ++ steady ++ during).map MatrixScan.time))
    (hsame : ∀ scan ∈ steady ++ during, scan.raw = raw) :
    ∃ calls, scannedCalls debounceTime (before ++ [first] ++ steady ++ during) =
        scannedCalls debounceTime (before ++ [first] ++ steady) ++ calls ∧
      calls.length = during.length ∧ ∀ call ∈ calls, call.matrix = rowBits raw := by
  induction during using List.reverseRecOn with
  | nil => exact ⟨[], by rw [List.append_nil, List.append_nil], rfl, by simp⟩
  | append_singleton during scan ih =>
    rw [← List.append_assoc] at htimed hsame ⊢
    obtain ⟨calls, hcalls, hlength, hmatrix⟩ := ih (timed_next MatrixScan.time _ scan htimed).1
      (fun c hc => hsame c (List.mem_append_left _ hc))
    obtain ⟨call, hcall, hrows, _⟩ := scannedCalls_concat debounceTime
      (before ++ [first] ++ steady ++ during) scan
    have hraw := settled_of_steady hpos before (steady ++ (during ++ [scan])) first raw
      (by rwa [← List.append_assoc, ← List.append_assoc]) hfirst
      (by rwa [← List.append_assoc])
      (hlong.imp (fun c hc => ⟨List.mem_append_left _ hc.1, hc.2⟩))
    rw [← List.append_assoc, ← List.append_assoc] at hraw
    refine ⟨calls ++ [call], ?_, by simp [hlength], fun c hc => ?_⟩
    · rw [hcall, hcalls, List.append_assoc]
    · rcases List.mem_append.mp hc with hc | hc
      · exact hmatrix c hc
      · rw [List.mem_singleton.mp hc, hrows, hraw]

end

theorem debounced_key_events (s : MatrixShape) (debounceTime : Byte) (hpos : debounceTime ≠ 0) :
    DebouncedEvents s debounceTime where
  earned scans htimed key := earned_of_scans hpos scans htimed key
  settles before steady during first raw htimed hfirst hsame hlong hlength key := by
    obtain ⟨calls, hcalls, hcount, hmatrix⟩ :=
      scannedCalls_settled hpos before steady first raw hfirst hlong during htimed hsame
    have hbit := settles (scannedCalls debounceTime (before ++ [first] ++ steady)) calls
      (rowBits raw) (hcount.trans hlength) hmatrix key
    rw [← hcalls, isDown_rowBits, (matrixPrev_held _ (scannedCalls_process debounceTime _) key).2]
      at hbit
    rw [← hbit]
    cases (keyHistory key (eventsOf (scannedCalls debounceTime
      (before ++ [first] ++ steady ++ during)))).getLast? with
    | none => simp
    | some last => simp

theorem debounced_key_events_five :
    (5 : Byte) ≠ 0 ∧ DebouncedEvents ⟨5, 14, by decide, by decide⟩ 5 :=
  ⟨by decide, debounced_key_events _ 5 (by decide)⟩

end K530
