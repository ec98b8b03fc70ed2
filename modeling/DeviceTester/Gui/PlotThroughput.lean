import DeviceTester.Gui.ScrollingBuffer
import DeviceTester.Lib.NarrowSum
import Mathlib.Data.UInt

/-!
# `gui::PlotThroughput`

The bytes received in each second of a window, and the averages of the windows there were. A
call of `addData` is given the reading of the clock and the number of bytes. Nothing else of
the span is looked at.
-/
namespace DeviceTester.Gui

open DeviceTester.Lib

structure PlotThroughput where
  dataSizes_ : ScrollingBuffer UInt64
  avgDataSizes_ : ScrollingBuffer UInt64
  minmaxY_ : UInt64 × UInt64
  minmaxX_ : UInt64 × UInt64
  deriving DecidableEq

/-- What `drawPlot` hands to the plot: the limits of the axes, and the two series. -/
structure Plot where
  limitsX : UInt64 × UInt64
  limitsY : UInt64 × UInt64
  throughput : List (Point UInt64)
  avgThroughput : List (Point UInt64)
  deriving DecidableEq, Repr

/-- `std::minmax_element`: the first of the smallest and the last of the largest by `key`. -/
def minmaxElement (key : Point UInt64 → UInt64) (data : List (Point UInt64)) :
    Option (Point UInt64 × Point UInt64) :=
  (data.minOn? key).bind fun low => (data.reverse.maxOn? key).map fun high => (low, high)

namespace PlotThroughput

/-- The constructor. `window` narrows to the `int` the buffers take. -/
def construct (window : UInt64) : Option PlotThroughput :=
  (ScrollingBuffer.construct window.toUInt32.toInt32).bind fun dataSizes_ =>
    (ScrollingBuffer.construct window.toUInt32.toInt32).map fun avgDataSizes_ =>
      ⟨dataSizes_, avgDataSizes_, (0, 1), (0, 1)⟩

/-- A call of `addData`: the seconds since the epoch, and `data.size()`. -/
structure Call where
  nowS : Int64
  dataSize : UInt64
  deriving DecidableEq, Repr

/-- The position of a call on the x axis. -/
def Call.x (c : Call) : UInt64 := c.nowS.toUInt64

/-- `sum / data_sizes_.data.size()`. -/
def average (dataSizes_ : ScrollingBuffer UInt64) : UInt64 :=
  narrowAverage (dataSizes_.data.map Point.y)

/-- The limits of the axes, from the sizes held. -/
def limits (p : PlotThroughput) : Option PlotThroughput :=
  (minmaxElement Point.y p.dataSizes_.data).bind fun (_, maxY) =>
    (minmaxElement Point.x p.dataSizes_.data).map fun (minX, maxX) =>
      { p with minmaxY_ := (0, maxY.y + 100), minmaxX_ := (minX.x, maxX.x) }

def addData (p : PlotThroughput) (c : Call) : Option PlotThroughput :=
  (p.dataSizes_.addToHisto c.x c.dataSize).bind fun (newPointAdded, dataSizes_) =>
    if newPointAdded then
      (p.avgDataSizes_.addPoint c.x (average dataSizes_)).bind fun avgDataSizes_ =>
        limits { p with dataSizes_, avgDataSizes_ }
    else limits { p with dataSizes_ }

def drawPlot (p : PlotThroughput) : Option Plot :=
  p.dataSizes_.drawn.bind fun throughput =>
    p.avgDataSizes_.drawn.map fun avgThroughput =>
      ⟨p.minmaxX_, p.minmaxY_, throughput, avgThroughput⟩

/-- The sizes held, oldest first. -/
def held (p : PlotThroughput) : List (Point UInt64) := p.dataSizes_.data.rotate p.dataSizes_.offset

/-- The sum of the sizes held. -/
def heldSum (p : PlotThroughput) : Nat := exactSum (p.dataSizes_.data.map Point.y)

/-- The call is in another second than the newest point. -/
def StartsPoint (p : PlotThroughput) (c : Call) : Prop := ScrollingBuffer.Starts p.held c.x

instance (p : PlotThroughput) (c : Call) : Decidable (p.StartsPoint c) :=
  inferInstanceAs (Decidable (ScrollingBuffer.Starts p.held c.x))

/-- The sum of the sizes in the window that ends with a new point. -/
def sumWith (p : PlotThroughput) (c : Call) : Nat :=
  exactSum (((p.held ++ [Point.mk c.x c.dataSize]).rtake p.dataSizes_.maxSize).map Point.y)

/-- From `p` to `q` the rounded average of the sizes then held is appended, which lies between
the smallest and the largest of them. -/
def AppendsAverage (p : PlotThroughput) (c : Call) (q : PlotThroughput) : Prop :=
  ∃ y, p.avgDataSizes_.addPoint c.x y = some q.avgDataSizes_ ∧
    y.toNat = q.heldSum / q.dataSizes_.data.length ∧
    (∃ low ∈ q.dataSizes_.data, low.y ≤ y) ∧ ∃ high ∈ q.dataSizes_.data, y ≤ high.y

/-! ## What a call does -/

variable {p q : PlotThroughput} {sizes averages : List (Point UInt64)} {w : Nat} {c : Call}

theorem minmaxElement_spec (key : Point UInt64 → UInt64) {data : List (Point UInt64)}
    (h : data ≠ []) :
    ∃ low high, minmaxElement key data = some (low, high) ∧ low ∈ data ∧ high ∈ data ∧
      ∀ p ∈ data, key low ≤ key p ∧ key p ≤ key high := by
  have hreverse : data.reverse ≠ [] := by simpa using h
  refine ⟨data.minOn key h, data.reverse.maxOn key hreverse, ?_, ?_, ?_, ?_⟩
  · rw [minmaxElement, List.minOn?_eq_some_minOn h, List.maxOn?_eq_some_maxOn hreverse]
    rfl
  · exact List.minOn_mem
  · exact List.mem_reverse.mp List.maxOn_mem
  · intro p hp
    constructor
    · exact List.apply_minOn_le_of_mem hp
    · exact List.le_apply_maxOn_of_mem (List.mem_reverse.mpr hp)

/-- The limits are those of the sizes held. -/
structure Limited (p : PlotThroughput) : Prop where
  minY : p.minmaxY_.1 = 0
  maxY : ∃ top ∈ p.dataSizes_.data, p.minmaxY_.2 = top.y + 100 ∧
    ∀ point ∈ p.dataSizes_.data, point.y ≤ top.y
  boundsX : ∀ point ∈ p.dataSizes_.data, p.minmaxX_.1 ≤ point.x ∧ point.x ≤ p.minmaxX_.2

theorem limits_spec (h : p.dataSizes_.data ≠ []) :
    ∃ q, limits p = some q ∧ q.dataSizes_ = p.dataSizes_ ∧ q.avgDataSizes_ = p.avgDataSizes_ ∧
      Limited q := by
  obtain ⟨lowY, top, hY, -, htop, hboundY⟩ := minmaxElement_spec Point.y h
  obtain ⟨low, high, hX, -, -, hboundX⟩ := minmaxElement_spec Point.x h
  refine ⟨{ p with minmaxY_ := (0, top.y + 100), minmaxX_ := (low.x, high.x) }, ?_, rfl, rfl, ?_⟩
  · rw [limits, hY, hX]
    rfl
  · refine ⟨rfl, ⟨top, htop, rfl, ?_⟩, hboundX⟩
    intro point hpoint
    exact (hboundY point hpoint).2

/-- The two buffers after `sizes` and `averages`, which are over the same seconds. -/
structure Holds (w : Nat) (sizes averages : List (Point UInt64)) (p : PlotThroughput) : Prop where
  followsSizes : p.dataSizes_.Follows sizes
  followsAverages : p.avgDataSizes_.Follows averages
  maxSize : p.dataSizes_.maxSize = w
  avgMaxSize : p.avgDataSizes_.maxSize = w
  seconds : averages.map Point.x = sizes.map Point.x

theorem Holds.held_eq (h : Holds w sizes averages p) : p.held = sizes.rtake w := by
  rw [held, h.followsSizes.drawn, h.maxSize]

theorem Holds.data_ne_nil (h : Holds w sizes averages p) (hw : 0 < w) (hne : sizes ≠ []) :
    p.dataSizes_.data ≠ [] := by
  have hlength := h.followsSizes.length
  have hpoints : 0 < sizes.length := List.length_pos_of_ne_nil hne
  rw [h.maxSize] at hlength
  apply List.ne_nil_of_length_pos
  omega

/-- Setting the limits leaves the buffers as they are. -/
theorem Holds.limits (h : Holds w sizes averages p) (hw : 0 < w) (hne : sizes ≠ []) :
    ∃ q, p.limits = some q ∧ q.dataSizes_ = p.dataSizes_ ∧ q.avgDataSizes_ = p.avgDataSizes_ ∧
      Holds w sizes averages q ∧ Limited q := by
  obtain ⟨q, hlimits, hdata, havg, hlimited⟩ := limits_spec (h.data_ne_nil hw hne)
  refine ⟨q, hlimits, hdata, havg, ?_, hlimited⟩
  constructor
  · rw [hdata]
    exact h.followsSizes
  · rw [havg]
    exact h.followsAverages
  · rw [hdata, h.maxSize]
  · rw [havg, h.avgMaxSize]
  · exact h.seconds

/-- A call in a new second. -/
theorem addData_starts (h : Holds w sizes averages p) (hw : 0 < w)
    (hstarts : ScrollingBuffer.Starts sizes c.x) :
    ∃ q y, p.addData c = some q ∧ p.avgDataSizes_.addPoint c.x y = some q.avgDataSizes_ ∧
      y = average q.dataSizes_ ∧
      Holds w (sizes ++ [⟨c.x, c.dataSize⟩]) (averages ++ [⟨c.x, y⟩]) q ∧ Limited q := by
  obtain ⟨dataSizes, hadd, hsize, hsizes⟩ :=
    ScrollingBuffer.addToHisto_follows h.followsSizes (h.maxSize ▸ hw) c.x c.dataSize
  obtain ⟨avgDataSizes, havg, havgSize, haverages⟩ :=
    ScrollingBuffer.addPoint_follows h.followsAverages (h.avgMaxSize ▸ hw) c.x (average dataSizes)
  rw [ScrollingBuffer.record_of_starts hstarts] at hsizes
  have hheld : Holds w (sizes ++ [⟨c.x, c.dataSize⟩]) (averages ++ [⟨c.x, average dataSizes⟩])
      { p with dataSizes_ := dataSizes, avgDataSizes_ := avgDataSizes } := by
    refine ⟨hsizes, haverages, hsize.trans h.maxSize, havgSize.trans h.avgMaxSize, ?_⟩
    rw [List.map_append, List.map_append, h.seconds]
    rfl
  obtain ⟨q, hlimits, hdata, hqavg, hq, hlimited⟩ := hheld.limits hw (by simp)
  refine ⟨q, average dataSizes, ?_, ?_, ?_, hq, hlimited⟩
  · simp [addData, hadd, hstarts, havg, hlimits]
  · rw [havg, hqavg]
  · rw [hdata]

/-- A call in the second of the newest point. -/
theorem addData_adds (h : Holds w sizes averages p) (hw : 0 < w)
    (hstarts : ¬ ScrollingBuffer.Starts sizes c.x) :
    ∃ q, p.addData c = some q ∧ q.avgDataSizes_ = p.avgDataSizes_ ∧
      Holds w (ScrollingBuffer.record sizes (.addToHisto c.x c.dataSize)) averages q ∧
      Limited q := by
  obtain ⟨dataSizes, hadd, hsize, hsizes⟩ :=
    ScrollingBuffer.addToHisto_follows h.followsSizes (h.maxSize ▸ hw) c.x c.dataSize
  have hheld : Holds w (ScrollingBuffer.record sizes (.addToHisto c.x c.dataSize)) averages
      { p with dataSizes_ := dataSizes } := by
    refine ⟨hsizes, h.followsAverages, hsize.trans h.maxSize, h.avgMaxSize, ?_⟩
    rw [h.seconds, ScrollingBuffer.map_x_record_of_not_starts hstarts]
  have hne : ScrollingBuffer.record sizes (.addToHisto c.x c.dataSize) ≠ [] := by
    obtain ⟨newest, hlast, hx⟩ := ScrollingBuffer.exists_same_of_not_starts hstarts
    rw [ScrollingBuffer.record_of_same hlast hx]
    simp
  obtain ⟨q, hlimits, -, hqavg, hq, hlimited⟩ := hheld.limits hw hne
  refine ⟨q, ?_, hqavg, hq, hlimited⟩
  simp [addData, hadd, hstarts, hlimits]

theorem addData_holds (h : Holds w sizes averages p) (hw : 0 < w) (c : Call) :
    ∃ q sizes' averages', p.addData c = some q ∧ Holds w sizes' averages' q := by
  by_cases hstarts : ScrollingBuffer.Starts sizes c.x
  · obtain ⟨q, y, hadd, -, -, hq, -⟩ := addData_starts h hw hstarts
    exact ⟨q, _, _, hadd, hq⟩
  · obtain ⟨q, hadd, -, hq, -⟩ := addData_adds h hw hstarts
    exact ⟨q, _, _, hadd, hq⟩

theorem exec_holds (h : Holds w sizes averages p) (hw : 0 < w) (calls : List Call) :
    ∃ q sizes' averages', exec addData p calls = some q ∧ Holds w sizes' averages' q := by
  induction calls generalizing p sizes averages with
  | nil => exact ⟨p, sizes, averages, rfl, h⟩
  | cons c calls ih =>
    obtain ⟨r, _, _, hadd, hr⟩ := addData_holds h hw c
    obtain ⟨q, sizes', averages', hexec, hq⟩ := ih hr
    refine ⟨q, sizes', averages', ?_, hq⟩
    rw [exec_cons hadd]
    exact hexec

theorem construct_holds {window : UInt64} (h : construct window = some p) :
    Holds window.toUInt32.toInt32.toNatClampNeg [] [] p := by
  obtain ⟨dataSizes, hsizes, h⟩ := Option.bind_eq_some_iff.mp h
  obtain ⟨avgDataSizes, haverages, rfl⟩ := Option.map_eq_some_iff.mp h
  obtain ⟨hfollows, hsize⟩ := ScrollingBuffer.construct_follows hsizes
  obtain ⟨hfollows', hsize'⟩ := ScrollingBuffer.construct_follows haverages
  exact ⟨hfollows, hfollows', hsize, hsize', rfl⟩

/-- A window of at least one second, as the `int` it narrows to, makes a plot whose calls all
return. -/
theorem runs_of_window {window : UInt64} (h : 1 ≤ window.toUInt32.toInt32) (calls : List Call) :
    ∃ fresh p, construct window = some fresh ∧ exec addData fresh calls = some p := by
  obtain ⟨hpos, buffer, hbuffer⟩ := ScrollingBuffer.exists_construct (E := UInt64) h
  obtain ⟨fresh, hfresh⟩ : ∃ fresh, construct window = some fresh := by
    simp [construct, hbuffer]
  obtain ⟨p, _, _, hexec, -⟩ := exec_holds (construct_holds hfresh) hpos calls
  exact ⟨fresh, p, hfresh, hexec⟩

/-- A window of no seconds has no cell to write to. -/
theorem addData_of_no_window (h : Holds 0 [] [] p) (c : Call) : p.addData c = none := by
  rw [addData, ScrollingBuffer.addToHisto_nil h.followsSizes,
    ScrollingBuffer.addPoint_of_no_size h.followsSizes h.maxSize]
  rfl

/-- Where one more call returns, the window is of at least one second. -/
theorem window_pos_of_returns {fresh : PlotThroughput} {calls : List Call}
    (h : Holds w [] [] fresh) (hreach : exec addData fresh calls = some p)
    (hadd : p.addData c = some q) : 0 < w := by
  rcases Nat.eq_zero_or_pos w with rfl | hpos
  · cases calls with
    | nil =>
      obtain rfl := Option.some.inj hreach
      rw [addData_of_no_window h] at hadd
      cases hadd
    | cons first calls =>
      obtain ⟨r, hfirst, -⟩ := exec_cons_some hreach
      rw [addData_of_no_window h] at hfirst
      cases hfirst
  · exact hpos

/-! ## The average that is appended -/

theorem Holds.heldSum_eq (h : Holds w sizes averages p) :
    p.heldSum = exactSum ((sizes.rtake w).map Point.y) := by
  rw [← h.held_eq, heldSum, held]
  apply exactSum_perm
  exact ((List.rotate_perm _ _).map Point.y).symm

theorem Holds.sumWith_eq (h : Holds w sizes averages p) (hw : 0 < w) (c : Call) :
    p.sumWith c = exactSum (((sizes ++ [Point.mk c.x c.dataSize]).rtake w).map Point.y) := by
  rw [sumWith, h.held_eq, h.maxSize, rtake_concat_rtake hw]

theorem Holds.starts_iff (h : Holds w sizes averages p) (hw : 0 < w) :
    p.StartsPoint c ↔ ScrollingBuffer.Starts sizes c.x := by
  rw [StartsPoint, h.held_eq, ScrollingBuffer.Starts, getLast?_rtake hw, ScrollingBuffer.Starts]

theorem average_eq_iff {b : ScrollingBuffer UInt64} {points : List (Point UInt64)}
    (h : b.Follows points) (hne : b.data ≠ []) (hfit : exactSum (b.data.map Point.y) < 2 ^ 64) :
    (average b).toNat = exactSum (b.data.map Point.y) / b.data.length ↔
      exactSum (b.data.map Point.y) < 2 ^ 31 ∨
        2 ^ 64 - 2 ^ 31 ≤ exactSum (b.data.map Point.y) := by
  have hpos : 0 < (b.data.map Point.y).length := by
    rw [List.length_map]
    exact List.length_pos_of_ne_nil hne
  have hlength : (b.data.map Point.y).length < 2 ^ 32 := by
    have hmin := h.length
    have hmax := b.maxSize_lt
    rw [List.length_map]
    omega
  have haverage := narrowAverage_eq_iff hpos hlength hfit
  rwa [List.length_map] at haverage

theorem appendsAverage_iff {y : UInt64} (hne : q.dataSizes_.data ≠ [])
    (havg : p.avgDataSizes_.addPoint c.x y = some q.avgDataSizes_) :
    AppendsAverage p c q ↔ y.toNat = q.heldSum / q.dataSizes_.data.length := by
  constructor
  · rintro ⟨y', havg', heq, -, -⟩
    obtain rfl := ScrollingBuffer.addPoint_injective havg havg'
    exact heq
  · intro heq
    have hys : q.dataSizes_.data.map Point.y ≠ [] := by simpa using hne
    refine ⟨y, havg, heq, ?_, ?_⟩
    · obtain ⟨low, hlow, hle⟩ := exists_le_average hys
      obtain ⟨point, hpoint, rfl⟩ := List.mem_map.mp hlow
      refine ⟨point, hpoint, UInt64.le_iff_toNat_le.mpr ?_⟩
      rw [heq]
      simpa [heldSum] using hle
    · obtain ⟨high, hhigh, hle⟩ := exists_average_le hys
      obtain ⟨point, hpoint, rfl⟩ := List.mem_map.mp hhigh
      refine ⟨point, hpoint, UInt64.le_iff_toNat_le.mpr ?_⟩
      rw [heq]
      simpa [heldSum] using hle

/-- The average of a new point is the rounded one exactly where the sum of the window is below
`2 ^ 31`, or within `2 ^ 31` of the end of 64 bits. In a window of at least one second every
call returns. -/
theorem appends_average_iff (window : UInt64) (calls : List Call) (c : Call) :
    (1 ≤ window.toUInt32.toInt32 → ∃ fresh p q, construct window = some fresh ∧
      exec addData fresh calls = some p ∧ p.addData c = some q) ∧
    ∀ fresh p q, construct window = some fresh → exec addData fresh calls = some p →
      p.addData c = some q → p.StartsPoint c → q.heldSum < 2 ^ 64 →
        (AppendsAverage p c q ↔ p.sumWith c < 2 ^ 31 ∨ 2 ^ 64 - 2 ^ 31 ≤ p.sumWith c) := by
  constructor
  · intro hwindow
    obtain ⟨fresh, q, hfresh, hexec⟩ := runs_of_window hwindow (calls ++ [c])
    rw [exec_append, Option.bind_eq_some_iff] at hexec
    obtain ⟨p, hp, hq⟩ := hexec
    obtain ⟨q', hadd, -⟩ := exec_cons_some hq
    exact ⟨fresh, p, q', hfresh, hp, hadd⟩
  · intro fresh p q hfresh hreach hadd hstarts hfit
    have hnil := construct_holds hfresh
    have hpos := window_pos_of_returns hnil hreach hadd
    obtain ⟨p', sizes, averages, hexec, hp⟩ := exec_holds hnil hpos calls
    obtain rfl : p = p' := Option.some.inj (hreach.symm.trans hexec)
    rw [hp.starts_iff hpos] at hstarts
    obtain ⟨q', y, hadd', havg, rfl, hq, -⟩ := addData_starts hp hpos hstarts
    obtain rfl : q = q' := Option.some.inj (hadd.symm.trans hadd')
    have hne : q.dataSizes_.data ≠ [] := hq.data_ne_nil hpos (by simp)
    have hsum : p.sumWith c = q.heldSum := by
      rw [hp.sumWith_eq hpos, hq.heldSum_eq]
    rw [appendsAverage_iff hne havg, hsum]
    exact average_eq_iff hq.followsSizes hne hfit

/-- Ten bytes in one second and 31 in the next: 20 on average. -/
theorem short_window_averages :
    ∃ fresh p q, construct 2 = some fresh ∧ exec addData fresh [⟨5, 10⟩] = some p ∧
      p.addData ⟨6, 31⟩ = some q ∧ AppendsAverage p ⟨6, 31⟩ q := by
  refine ⟨⟨⟨2, by decide, -1, 0, []⟩, ⟨2, by decide, -1, 0, []⟩, (0, 1), (0, 1)⟩,
    ⟨⟨2, by decide, -1, 0, [⟨5, 10⟩]⟩, ⟨2, by decide, -1, 0, [⟨5, 10⟩]⟩, (0, 110), (5, 5)⟩,
    ⟨⟨2, by decide, -1, 0, [⟨5, 10⟩, ⟨6, 31⟩]⟩, ⟨2, by decide, -1, 0, [⟨5, 10⟩, ⟨6, 20⟩]⟩,
      (0, 131), (5, 6)⟩, ?_, ?_, ?_, ?_⟩
  · decide
  · decide
  · decide
  · refine ((appends_average_iff 2 [⟨5, 10⟩] ⟨6, 31⟩).2
      ⟨⟨2, by decide, -1, 0, []⟩, ⟨2, by decide, -1, 0, []⟩, (0, 1), (0, 1)⟩
      _ _ ?_ ?_ ?_ ?_ ?_).mpr ?_
    all_goals decide

/-- `2 ^ 31` bytes in the first second. -/
theorem large_size_misaverages :
    ∃ fresh q, construct 100 = some fresh ∧ fresh.addData ⟨5, 2147483648⟩ = some q ∧
      fresh.StartsPoint ⟨5, 2147483648⟩ ∧ q.heldSum = 2 ^ 31 ∧
      q.avgDataSizes_.drawn = some [⟨5, 18446744071562067968⟩] ∧
      ¬ AppendsAverage fresh ⟨5, 2147483648⟩ q := by
  refine ⟨⟨⟨100, by decide, -1, 0, []⟩, ⟨100, by decide, -1, 0, []⟩, (0, 1), (0, 1)⟩,
    ⟨⟨100, by decide, -1, 0, [⟨5, 2147483648⟩]⟩, ⟨100, by decide, -1, 0, [⟨5, 18446744071562067968⟩]⟩,
      (0, 2147483748), (5, 5)⟩, ?_, ?_, ?_, ?_, ?_, ?_⟩
  · decide
  · decide
  · decide
  · decide
  · decide
  · rintro ⟨y, havg, hy, -, -⟩
    have hdata := congrArg ScrollingBuffer.data (Option.some.inj havg)
    obtain ⟨-, rfl⟩ : _ ∧ y = 18446744071562067968 := by simpa using hdata
    revert hy
    decide

/-! ## The two series side by side -/

/-- Equal numbers of points, equal offsets, and the same seconds at every index. -/
structure InLockstep (p : PlotThroughput) : Prop where
  length : p.dataSizes_.data.length = p.avgDataSizes_.data.length
  offset : p.dataSizes_.offset = p.avgDataSizes_.offset
  prevOffset : p.dataSizes_.prevOffset = p.avgDataSizes_.prevOffset
  x : ∀ i : Nat, (p.dataSizes_.data[i]?).map Point.x = (p.avgDataSizes_.data[i]?).map Point.x

theorem Holds.length_eq (h : Holds w sizes averages p) : sizes.length = averages.length := by
  have hseconds := congrArg List.length h.seconds
  rw [List.length_map, List.length_map] at hseconds
  exact hseconds.symm

/-- Both buffers follow lists of one length in windows of one size, so they have wrapped equally
often. -/
theorem Holds.inLockstep (h : Holds w sizes averages p) : InLockstep p := by
  have hlength := h.length_eq
  have hoffset : p.dataSizes_.offset = p.avgDataSizes_.offset := by
    rw [h.followsSizes.offset, h.followsAverages.offset, h.maxSize, h.avgMaxSize, hlength]
  constructor
  · rw [h.followsSizes.length, h.followsAverages.length, h.maxSize, h.avgMaxSize, hlength]
  · exact hoffset
  · rw [h.followsSizes.prevOffset, h.followsAverages.prevOffset, h.maxSize, h.avgMaxSize, hlength]
  · have hdrawn : (p.dataSizes_.data.map Point.x).rotate p.dataSizes_.offset =
        (p.avgDataSizes_.data.map Point.x).rotate p.dataSizes_.offset := by
      rw [← List.map_rotate, h.followsSizes.drawn, hoffset, ← List.map_rotate,
        h.followsAverages.drawn, h.maxSize, h.avgMaxSize, ← map_rtake, ← map_rtake, h.seconds]
    have hx : p.dataSizes_.data.map Point.x = p.avgDataSizes_.data.map Point.x :=
      List.rotate_injective p.dataSizes_.offset hdrawn
    intro i
    rw [← List.getElem?_map, ← List.getElem?_map, hx]

/-- After every sequence of calls the two buffers are in lockstep. In a window of at least one
second every call returns. -/
theorem stays_in_lockstep (window : UInt64) (calls : List Call) :
    (1 ≤ window.toUInt32.toInt32 → ∃ fresh p, construct window = some fresh ∧
      exec addData fresh calls = some p) ∧
    ∀ fresh p, construct window = some fresh → exec addData fresh calls = some p →
      InLockstep p := by
  constructor
  · intro hwindow
    exact runs_of_window hwindow calls
  · intro fresh p hfresh hreach
    have hnil := construct_holds hfresh
    cases calls with
    | nil =>
      obtain rfl : fresh = p := Option.some.inj hreach
      exact hnil.inLockstep
    | cons c calls =>
      obtain ⟨r, hfirst, -⟩ := exec_cons_some hreach
      have hnone : exec addData fresh [] = some fresh := rfl
      have hpos := window_pos_of_returns hnil hnone hfirst
      obtain ⟨p', sizes, averages, hexec, hp⟩ := exec_holds hnil hpos (c :: calls)
      obtain rfl : p = p' := Option.some.inj (hreach.symm.trans hexec)
      exact hp.inLockstep

/-- A window of two seconds that has wrapped. -/
theorem wrapped_in_lockstep :
    ∃ fresh p, construct 2 = some fresh ∧
      exec addData fresh [⟨5, 10⟩, ⟨6, 20⟩, ⟨6, 1⟩, ⟨7, 30⟩] = some p ∧ InLockstep p := by
  obtain ⟨fresh, p, hfresh, hexec⟩ :=
    (stays_in_lockstep 2 [⟨5, 10⟩, ⟨6, 20⟩, ⟨6, 1⟩, ⟨7, 30⟩]).1 (by decide)
  exact ⟨fresh, p, hfresh, hexec, (stays_in_lockstep 2 _).2 fresh p hfresh hexec⟩

end PlotThroughput

end DeviceTester.Gui
