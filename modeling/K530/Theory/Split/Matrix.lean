import K530.Lib.Run
import K530.Split.Matrix

/-!
# The Other Half's Rows

Each scan either ends on the rows the exchange handed out in it, or on no rows
at all while the link is disconnected. `Sound` carries the second half of that:
what was shown last is cleared when the connection is lost, and nothing shows
before it comes back.

The exchange itself is the second operand of an `||` whose first says that the
pins of the master's own half have changed. A scan in which they have does not
exchange anything, and the other half's rows stay what they were. While the
link is throttled that makes no difference; otherwise it does, at every such
scan, and `shows_other_iff` says so. A contact that bounces holds the other half
up for as long as it does.

## Main definitions

* `ScanReport`: What a scan leaves for the keyboard to see.

## Theorems

* `shows_other_iff`: When every scan of a run does.
* `shows_other_broken`: One that does not.
-/

namespace K530

open StepRun

namespace SplitMatrix

variable {width rows : Nat} {δ : Type} (c : SplitConfig)

/-- What a scan leaves behind: what was exchanged in it, whether an exchange was
    forbidden, whether the link counts as connected, and the other half's rows. -/
structure ScanReport (width rows : Nat) where
  exchanged : Option (HalfMatrix width rows)
  throttled : Bool
  connected : Bool
  thatHand : HalfMatrix width rows
  deriving DecidableEq

/-- The scan has exchanged unless it was not allowed to, and the rows shown are
    the ones handed out, or none while the link is disconnected. -/
def ScanReport.ShowsOther (r : ScanReport width rows) : Prop :=
  (r.exchanged = none → r.throttled = true) ∧
    (r.exchanged = some r.thatHand ∨ r.connected = false ∧ r.thatHand = noRows)

instance (r : ScanReport width rows) : Decidable r.ShowsOther :=
  inferInstanceAs (Decidable (_ ∧ _))

section Scans

variable (debounce : HalfMatrix width rows → Bool → HalfMatrix width rows × δ →
  HalfMatrix width rows × δ)

/-- A scan, with what it leaves behind. -/
def scanStep (s : SplitMatrix width rows δ) (i : Scan width rows) :
    SplitMatrix width rows δ × ScanReport width rows :=
  let scanned := s.matrixScan c debounce i
  (scanned.1,
    { exchanged := scanned.2.exchanged, throttled := s.link.throttled c i.now,
      connected := scanned.1.link.isTransportConnected c, thatHand := scanned.1.thatHand })

/-- The master's own pins have not changed, or there is no exchange to miss. -/
def GetsThrough (s : SplitMatrix width rows δ) (i : Scan width rows) : Prop :=
  s.raw = i.reading ∨ s.link.throttled c i.now = true

structure Sound (s : SplitMatrix width rows δ) : Prop where
  dark : s.lastConnected = false → s.thatHand = noRows
  cut : 0 < c.maxConnectionErrors → s.link.isTransportConnected c = false →
    s.lastConnected = false

theorem init_sound (d : δ) : (init d : SplitMatrix width rows δ).Sound c where
  dark := fun _ => rfl
  cut := fun _ _ => rfl

theorem showSlave_lost (slaveMatrix : HalfMatrix width rows) (s : SplitMatrix width rows δ)
    (h : s.lastConnected = false → s.thatHand = noRows) :
    (s.showSlave false slaveMatrix).2.thatHand = noRows ∧
      (s.showSlave false slaveMatrix).2.lastConnected = false ∧
      (s.showSlave false slaveMatrix).2.link = s.link := by
  unfold showSlave
  rw [if_neg (by decide)]
  cases hlast : s.lastConnected with
  | true => exact ⟨rfl, rfl, rfl⟩
  | false => exact ⟨h hlast, hlast, rfl⟩

theorem afterExchange_cases (okay : Bool) (later : BitVec 16) (l : Link) :
    ((l.afterExchange c okay later).1 ∧
      (0 < c.maxConnectionErrors →
        (l.afterExchange c okay later).2.isTransportConnected c)) ∨
    ((l.afterExchange c okay later).1 = false ∧
      (l.afterExchange c okay later).2.isTransportConnected c = false) := by
  unfold Link.afterExchange
  by_cases hmax : c.maxConnectionErrors = 0
  · rw [if_pos hmax]
    exact Or.inl ⟨rfl, fun hpos => absurd hmax hpos.ne'⟩
  · rw [if_neg hmax]
    have hzero : ∀ l : Link, ({ l with connectionErrors := 0 } : Link).isTransportConnected c := by
      intro l
      simp [Link.isTransportConnected]
      omega
    cases okay with
    | true => exact Or.inl ⟨rfl, fun _ => hzero l⟩
    | false =>
      rw [if_neg (by decide)]
      by_cases htimeout : c.connectionCheckTimeout = 0
      · rw [if_pos htimeout]
        exact Or.inl ⟨rfl, fun _ => hzero l.countError⟩
      · rw [if_neg htimeout]
        cases hconnected : l.countError.isTransportConnected c with
        | true => exact Or.inl ⟨rfl, fun _ => hconnected⟩
        | false => exact Or.inr ⟨rfl, hconnected⟩

theorem matrixPostScan_spec (i : Scan width rows) (s : SplitMatrix width rows δ)
    (h : s.Sound c) :
    (s.matrixPostScan c i).2.Sound c ∧
      (s.matrixPostScan c i).1.exchanged =
        (if s.link.throttled c i.now then none else some i.slaveMatrix) ∧
      ((s.link.throttled c i.now = false ∧
          (s.matrixPostScan c i).2.thatHand = i.slaveMatrix) ∨
        (s.matrixPostScan c i).2.link.isTransportConnected c = false ∧
          (s.matrixPostScan c i).2.thatHand = noRows) := by
  unfold matrixPostScan
  cases hthrottled : s.link.throttled c i.now with
  | true =>
    rw [if_pos rfl, if_pos rfl]
    have hlost := showSlave_lost i.slaveMatrix s h.dark
    have hcut : s.link.isTransportConnected c = false := by
      unfold Link.throttled at hthrottled
      simp at hthrottled
      exact hthrottled.1.2
    refine ⟨⟨fun _ => hlost.1, fun _ _ => hlost.2.1⟩, rfl, Or.inr ⟨?_, hlost.1⟩⟩
    rw [hlost.2.2]
    exact hcut
  | false =>
    rw [if_neg (by decide), if_neg (by decide)]
    dsimp only
    rcases afterExchange_cases c i.okay i.later s.link with ⟨hup, hconnected⟩ | ⟨hdown, hcut⟩
    · rw [hup]
      refine ⟨⟨fun hlast => ?_, fun hmax hlink => ?_⟩, rfl, Or.inl ⟨rfl, rfl⟩⟩
      · exact absurd hlast (by simp [showSlave])
      · exact absurd ((hconnected hmax).symm.trans hlink) (by decide)
    · rw [hdown]
      have hlost := showSlave_lost i.slaveMatrix
        { s with link := (s.link.afterExchange c i.okay i.later).2 } h.dark
      refine ⟨⟨fun _ => hlost.1, fun _ _ => hlost.2.1⟩, rfl, Or.inr ⟨?_, hlost.1⟩⟩
      rw [hlost.2.2]
      exact hcut

theorem readPins_link (reading : HalfMatrix width rows) (s : SplitMatrix width rows δ) :
    (s.readPins debounce reading).link = s.link := rfl

theorem scanStep_sound (s : SplitMatrix width rows δ) (i : Scan width rows) (h : s.Sound c) :
    (scanStep c debounce s i).1.Sound c := by
  unfold scanStep matrixScan
  by_cases hchanged : s.raw ≠ i.reading
  · rw [if_pos hchanged]
    exact ⟨h.dark, h.cut⟩
  · rw [if_neg hchanged]
    exact (matrixPostScan_spec c i (s.readPins debounce i.reading) ⟨h.dark, h.cut⟩).1

theorem scanStep_shows (s : SplitMatrix width rows δ) (i : Scan width rows) (h : s.Sound c) :
    (scanStep c debounce s i).2.ShowsOther ↔ s.GetsThrough c i := by
  unfold scanStep matrixScan ScanReport.ShowsOther GetsThrough
  by_cases hchanged : s.raw ≠ i.reading
  · -- the exchange is not come to
    rw [if_pos hchanged]
    constructor
    · exact fun hshows => Or.inr (hshows.1 rfl)
    · intro hthrough
      have hthrottled := hthrough.resolve_left hchanged
      have hlink : 0 < c.maxConnectionErrors ∧ s.link.isTransportConnected c = false := by
        unfold Link.throttled at hthrottled
        simp at hthrottled
        exact ⟨hthrottled.1.1.1, hthrottled.1.2⟩
      exact ⟨fun _ => hthrottled, Or.inr ⟨hlink.2, h.dark (h.cut hlink.1 hlink.2)⟩⟩
  · rw [if_neg hchanged]
    dsimp only
    have hpost := matrixPostScan_spec c i (s.readPins debounce i.reading) ⟨h.dark, h.cut⟩
    rw [readPins_link] at hpost
    refine iff_of_true ⟨fun hnone => ?_, ?_⟩ (Or.inl (not_not.mp hchanged))
    · rw [hpost.2.1] at hnone
      by_contra hthrottled
      rw [if_neg hthrottled] at hnone
      exact absurd hnone (by simp)
    · rcases hpost.2.2 with ⟨hthrottled, hrows⟩ | hcut
      · refine Or.inl (hpost.2.1.trans ?_)
        rw [hrows, if_neg (by simp [hthrottled])]
      · exact Or.inr hcut

/-- Every scan of a run from power-on shows the other half exactly when every scan
    gets through to the exchange: the master's own pins have not changed, or the
    link is throttled. -/
theorem shows_other_iff (d : δ) (scans : List (Scan width rows)) :
    (∀ r ∈ trace (scanStep c debounce) (init d) scans, r.ShowsOther) ↔
      Along (next (scanStep c debounce)) (GetsThrough c) (init d) scans :=
  forall_trace_iff_along (scanStep c debounce) (GetsThrough c) (Sound c) ScanReport.ShowsOther
    (fun s i hs _ => scanStep_sound c debounce s i hs)
    (fun s i hs => scanStep_shows c debounce s i hs) scans (init d) (init_sound c d)

end Scans

def bothAtOnce : Scan 8 1 :=
  { reading := #v[1], now := 0, later := 0, okay := true, slaveMatrix := #v[1] }

/-- The scan that sees a key of the master's own half change does not look at the
    other half. -/
theorem shows_other_broken :
    ¬ ∀ (c : SplitConfig) (scans : List (Scan 8 1)),
      ∀ r ∈ trace (scanStep c (fun raw _ cooked => (raw, cooked.2))) (init ()) scans,
        r.ShowsOther := by
  intro h
  have hshows := h { maxConnectionErrors := 10, connectionCheckTimeout := 500 } [bothAtOnce] _
    List.mem_cons_self
  exact absurd hshows (by decide)

end SplitMatrix

end K530
