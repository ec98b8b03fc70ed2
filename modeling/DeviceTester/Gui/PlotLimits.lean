import DeviceTester.Gui.PlotThroughput

/-!
# What is drawn and the limits of the axes

The limits are taken from the sizes held after a call. The averages drawn beside them are those
of earlier windows, whose sizes may have been pushed out since.
-/
namespace DeviceTester.Gui.PlotThroughput

open DeviceTester.Lib

/-- Every point of both series lies within the limits of the axes. -/
def Within (p : PlotThroughput) : Prop :=
  ∃ plot, p.drawPlot = some plot ∧
    ∀ point ∈ plot.throughput ++ plot.avgThroughput,
      (plot.limitsX.1 ≤ point.x ∧ point.x ≤ plot.limitsX.2) ∧
        plot.limitsY.1 ≤ point.y ∧ point.y ≤ plot.limitsY.2

instance (p : PlotThroughput) : Decidable (Within p) :=
  inferInstanceAs (Decidable (∃ plot, plot ∈ p.drawPlot ∧
    ∀ point ∈ plot.throughput ++ plot.avgThroughput,
      (plot.limitsX.1 ≤ point.x ∧ point.x ≤ plot.limitsX.2) ∧
        plot.limitsY.1 ≤ point.y ∧ point.y ≤ plot.limitsY.2))

/-! ## What the calls ask for -/

/-- The byte counts of all seconds, and the rounded average of the window that ended with each. -/
structure Series where
  sizes : List (Point UInt64)
  averages : List Nat
  deriving DecidableEq, Repr

namespace Series

def start : Series := ⟨[], []⟩

/-- The byte counts in the window. -/
def window (w : Nat) (r : Series) : List (Point UInt64) := r.sizes.rtake w

def windowSum (w : Nat) (r : Series) : Nat := exactSum ((r.window w).map Point.y)

def note (w : Nat) (r : Series) (c : Call) : Series :=
  let next : Series := { r with sizes := ScrollingBuffer.record r.sizes (.addToHisto c.x c.dataSize) }
  if ScrollingBuffer.Starts r.sizes c.x then
    { next with averages := r.averages ++ [next.windowSum w / (next.window w).length] }
  else next

/-- The sum that is taken where a point is started does not overflow. -/
def SumFits (w : Nat) (r : Series) (c : Call) (r' : Series) : Prop :=
  ScrollingBuffer.Starts r.sizes c.x → r'.windowSum w < 2 ^ 31

/-- The averages drawn exceed the largest byte count in the window by 100 at most, and that
count leaves room for adding 100. -/
def Covered (w : Nat) (_ : Series) (_ : Call) (r : Series) : Prop :=
  (∀ p ∈ r.window w, p.y.toNat + 100 < 2 ^ 64) ∧
    ∀ a ∈ r.averages.rtake w, ∃ p ∈ r.window w, a ≤ p.y.toNat + 100

instance (w : Nat) (r : Series) (c : Call) (r' : Series) : Decidable (SumFits w r c r') :=
  inferInstanceAs (Decidable (_ → _))

instance (w : Nat) (r : Series) (c : Call) (r' : Series) : Decidable (Covered w r c r') :=
  inferInstanceAs (Decidable (_ ∧ _))

end Series

/-! ## The drawn points and the limits -/

variable {p q : PlotThroughput} {sizes averages : List (Point UInt64)} {w : Nat} {c : Call}

theorem Holds.drawPlot_eq (h : Holds w sizes averages p) :
    p.drawPlot = some ⟨p.minmaxX_, p.minmaxY_, sizes.rtake w, averages.rtake w⟩ := by
  have hsizes : p.dataSizes_.drawn = some (sizes.rtake w) := by
    rw [ScrollingBuffer.drawn, readCyclic_eq, h.followsSizes.drawn, h.maxSize]
  have haverages : p.avgDataSizes_.drawn = some (averages.rtake w) := by
    rw [ScrollingBuffer.drawn, readCyclic_eq, h.followsAverages.drawn, h.avgMaxSize]
  rw [drawPlot, hsizes, haverages]
  rfl

theorem Holds.mem_data_iff (h : Holds w sizes averages p) {point : Point UInt64} :
    point ∈ p.dataSizes_.data ↔ point ∈ sizes.rtake w := by
  rw [← h.held_eq, held, List.mem_rotate]

/-- The x axis takes in both series, since they are over the same seconds. -/
theorem within_limitsX (h : Holds w sizes averages p) (hlimited : Limited p)
    {point : Point UInt64} (hpoint : point ∈ sizes.rtake w ++ averages.rtake w) :
    p.minmaxX_.1 ≤ point.x ∧ point.x ≤ p.minmaxX_.2 := by
  have hx : point.x ∈ (sizes.rtake w).map Point.x := by
    rcases List.mem_append.mp hpoint with hsize | haverage
    · exact List.mem_map_of_mem hsize
    · rw [← map_rtake, ← h.seconds, map_rtake]
      exact List.mem_map_of_mem haverage
  obtain ⟨size, hsize, heq⟩ := List.mem_map.mp hx
  rw [← heq]
  exact hlimited.boundsX size (h.mem_data_iff.mpr hsize)

theorem le_add_hundred_iff (a : UInt64) : a ≤ a + 100 ↔ a.toNat + 100 < 2 ^ 64 := by
  have hlt : a.toNat < 2 ^ 64 := a.toNat_lt
  rw [UInt64.le_iff_toNat_le, UInt64.toNat_add]
  show a.toNat ≤ (a.toNat + 100) % 2 ^ 64 ↔ a.toNat + 100 < 2 ^ 64
  omega

theorem toNat_add_hundred {a : UInt64} (h : a.toNat + 100 < 2 ^ 64) :
    (a + 100).toNat = a.toNat + 100 := by
  rw [UInt64.toNat_add]
  exact Nat.mod_eq_of_lt h

/-- What is left of `Within` is about the upper limit of the y axis. -/
theorem within_iff (h : Holds w sizes averages p) (hlimited : Limited p) :
    Within p ↔ (∀ size ∈ sizes.rtake w, size.y.toNat + 100 < 2 ^ 64) ∧
      ∀ average ∈ averages.rtake w, ∃ size ∈ sizes.rtake w,
        average.y.toNat ≤ size.y.toNat + 100 := by
  obtain ⟨top, htop, hmaxY, hbound⟩ := hlimited.maxY
  have htop' : top ∈ sizes.rtake w := h.mem_data_iff.mp htop
  constructor
  · rintro ⟨plot, hplot, hwithin⟩
    obtain rfl := Option.some.inj (h.drawPlot_eq.symm.trans hplot)
    simp only [hmaxY] at hwithin
    have hroom : top.y.toNat + 100 < 2 ^ 64 :=
      (le_add_hundred_iff top.y).mp (hwithin top (List.mem_append_left _ htop')).2.2
    constructor
    · intro size hsize
      have hle := UInt64.le_iff_toNat_le.mp (hbound size (h.mem_data_iff.mpr hsize))
      omega
    · intro average haverage
      have hle := UInt64.le_iff_toNat_le.mp
        (hwithin average (List.mem_append_right _ haverage)).2.2
      rw [toNat_add_hundred hroom] at hle
      exact ⟨top, htop', hle⟩
  · rintro ⟨hroom, hcovered⟩
    have hlimit : p.minmaxY_.2.toNat = top.y.toNat + 100 := by
      rw [hmaxY]
      exact toNat_add_hundred (hroom top htop')
    refine ⟨_, h.drawPlot_eq, fun point hpoint => ⟨within_limitsX h hlimited hpoint, ?_, ?_⟩⟩
    · show p.minmaxY_.1 ≤ point.y
      rw [hlimited.minY, UInt64.le_iff_toNat_le]
      exact Nat.zero_le _
    · show point.y ≤ p.minmaxY_.2
      rw [UInt64.le_iff_toNat_le, hlimit]
      rcases List.mem_append.mp hpoint with hsize | haverage
      · have hle := UInt64.le_iff_toNat_le.mp (hbound point (h.mem_data_iff.mpr hsize))
        omega
      · obtain ⟨size, hsize, hle⟩ := hcovered point haverage
        have hle' := UInt64.le_iff_toNat_le.mp (hbound size (h.mem_data_iff.mpr hsize))
        omega

/-! ## The buffers and the series -/

variable {r : Series}

/-- The buffers hold the sizes of the series, and the averages as computed are those it has. -/
def Matches (w : Nat) (p : PlotThroughput) (r : Series) : Prop :=
  ∃ averages, Holds w r.sizes averages p ∧ averages.map (fun a => a.y.toNat) = r.averages

theorem Series.note_of_starts (hstarts : ScrollingBuffer.Starts r.sizes c.x) :
    (r.note w c).sizes = r.sizes ++ [⟨c.x, c.dataSize⟩] ∧
      (r.note w c).averages =
        r.averages ++ [(r.note w c).windowSum w / ((r.note w c).window w).length] := by
  constructor
  · rw [note, if_pos hstarts]
    exact ScrollingBuffer.record_of_starts hstarts c.dataSize
  · simp [note, hstarts, windowSum, window]

theorem Series.note_of_not_starts (hstarts : ¬ ScrollingBuffer.Starts r.sizes c.x) :
    (r.note w c).sizes = ScrollingBuffer.record r.sizes (.addToHisto c.x c.dataSize) ∧
      (r.note w c).averages = r.averages := by
  rw [note, if_neg hstarts]
  exact ⟨rfl, rfl⟩

theorem within_iff_covered (h : Holds w r.sizes averages p) (hlimited : Limited p)
    (haverages : averages.map (fun a => a.y.toNat) = r.averages) (r' : Series) :
    Within p ↔ Series.Covered w r' c r := by
  rw [within_iff h hlimited, Series.Covered, Series.window, ← haverages, map_rtake,
    List.forall_mem_map]

/-- A call keeps the buffers and the series together, as long as its sum does not overflow. -/
theorem matches_addData (h : Matches w p r) (hw : 0 < w)
    (hfits : Series.SumFits w r c (r.note w c)) :
    ∃ q, p.addData c = some q ∧ Matches w q (r.note w c) ∧
      (Within q ↔ Series.Covered w r c (r.note w c)) := by
  obtain ⟨averages, hp, haverages⟩ := h
  by_cases hstarts : ScrollingBuffer.Starts r.sizes c.x
  · obtain ⟨q, y, hadd, -, hy, hq, hlimited⟩ := addData_starts hp hw hstarts
    obtain ⟨hsizes, hnoted⟩ := Series.note_of_starts (w := w) hstarts
    rw [← hsizes] at hq
    have hsum : q.heldSum = (r.note w c).windowSum w := hq.heldSum_eq
    have hlength : q.dataSizes_.data.length = ((r.note w c).window w).length := by
      rw [Series.window, ← hq.held_eq, held, List.length_rotate]
    have hne : q.dataSizes_.data ≠ [] := hq.data_ne_nil hw (by rw [hsizes]; simp)
    have hsmall : exactSum (q.dataSizes_.data.map Point.y) < 2 ^ 31 := by
      show q.heldSum < 2 ^ 31
      rw [hsum]
      exact hfits hstarts
    have hexact : y.toNat = (r.note w c).windowSum w / ((r.note w c).window w).length := by
      rw [hy, ← hsum, ← hlength]
      apply (average_eq_iff hq.followsSizes hne (by omega)).mpr
      left
      exact hsmall
    have hmatch : (averages ++ [Point.mk c.x y]).map (fun a => a.y.toNat) =
        (r.note w c).averages := by
      rw [hnoted, List.map_append, haverages, List.map_singleton, hexact]
    exact ⟨q, hadd, ⟨_, hq, hmatch⟩, within_iff_covered hq hlimited hmatch r⟩
  · obtain ⟨q, hadd, -, hq, hlimited⟩ := addData_adds hp hw hstarts
    obtain ⟨hsizes, hnoted⟩ := Series.note_of_not_starts (w := w) hstarts
    rw [← hsizes] at hq
    have hmatch : averages.map (fun a => a.y.toNat) = (r.note w c).averages :=
      haverages.trans hnoted.symm
    exact ⟨q, hadd, ⟨averages, hq, hmatch⟩, within_iff_covered hq hlimited hmatch r⟩

theorem covered_of_no_window (r : Series) (c : Call) (r' : Series) : Series.Covered 0 r c r' := by
  simp [Series.Covered, Series.window]

/-- Where no sum that is taken overflows, everything drawn lies within the limits after every
call exactly when no average drawn exceeds the largest byte count in the window by more than
100. In a window of at least one second every call returns. -/
theorem drawn_within_iff (window : UInt64) (calls : List Call) :
    (1 ≤ window.toUInt32.toInt32 → ∃ fresh p, construct window = some fresh ∧
      exec addData fresh calls = some p) ∧
    ∀ fresh w, construct window = some fresh → w = fresh.dataSizes_.maxSize →
      Along (always (Series.note w)) (Series.SumFits w) .start calls →
        (Along addData (fun _ _ q => Within q) fresh calls ↔
          Along (always (Series.note w)) (Series.Covered w) .start calls) := by
  constructor
  · intro hwindow
    exact runs_of_window hwindow calls
  · rintro fresh w hfresh rfl hfits
    have hnil := construct_holds hfresh
    rw [← hnil.maxSize] at hnil
    rcases Nat.eq_zero_or_pos fresh.dataSizes_.maxSize with hzero | hpos
    · rw [hzero] at hnil ⊢
      have hcovered : Along (always (Series.note 0)) (Series.Covered 0) .start calls :=
        along_of_forall covered_of_no_window .start calls
      refine iff_of_true ?_ hcovered
      cases calls with
      | nil => trivial
      | cons c calls =>
        intro q hq
        rw [addData_of_no_window hnil] at hq
        cases hq
    · have hmatches : Matches fresh.dataSizes_.maxSize fresh .start := ⟨[], hnil, rfl⟩
      refine along_iff_of_lockstep (fun p r c h hfit => ?_) hmatches calls hfits
      exact matches_addData h hpos hfit

/-- Even traffic in a window of two seconds. -/
theorem even_traffic_within :
    ∃ fresh, construct 2 = some fresh ∧
      Along addData (fun _ _ q => Within q) fresh [⟨5, 300⟩, ⟨6, 250⟩, ⟨7, 250⟩] := by
  refine ⟨⟨⟨2, by decide, -1, 0, []⟩, ⟨2, by decide, -1, 0, []⟩, (0, 1), (0, 1)⟩, ?_, ?_⟩
  · decide
  · refine ((drawn_within_iff 2 [⟨5, 300⟩, ⟨6, 250⟩, ⟨7, 250⟩]).2 _ 2 ?_ ?_ ?_).mpr ?_
    all_goals decide

/-- A second with 1000 bytes and two without, in a window of two: the average of the first two
is still drawn when the 1000 bytes have left the window. -/
theorem burst_not_within :
    ∃ fresh, construct 2 = some fresh ∧
      Along (always (Series.note 2)) (Series.SumFits 2) .start [⟨5, 1000⟩, ⟨6, 0⟩, ⟨7, 0⟩] ∧
      ¬ Along addData (fun _ _ q => Within q) fresh [⟨5, 1000⟩, ⟨6, 0⟩, ⟨7, 0⟩] := by
  refine ⟨⟨⟨2, by decide, -1, 0, []⟩, ⟨2, by decide, -1, 0, []⟩, (0, 1), (0, 1)⟩, ?_, ?_, ?_⟩
  · decide
  · decide
  · decide

end DeviceTester.Gui.PlotThroughput
