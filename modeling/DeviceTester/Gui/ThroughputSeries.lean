import DeviceTester.Gui.PlotLimits
import DeviceTester.Lib.Histogram

/-!
# The throughput that is drawn

The sizes of the calls of `addData`, second by second.
-/
namespace DeviceTester.Gui

open DeviceTester.Lib

def Point.pair {E : Type*} (p : Point E) : E × E := (p.x, p.y)

namespace ScrollingBuffer

variable {E : Type*} [DecidableEq E] [AddCommMonoid E]

theorem map_pair_record (points : List (Point E)) (x y : E) :
    (record points (.addToHisto x y)).map Point.pair = tally (points.map Point.pair) (x, y) := by
  cases hlast : points.getLast? with
  | none =>
    obtain rfl := List.getLast?_eq_none_iff.mp hlast
    rfl
  | some p =>
    have hpair : (points.map Point.pair).getLast? = some p.pair := by
      rw [List.getLast?_map, hlast]
      rfl
    by_cases hx : p.x = x
    · rw [record_of_same hlast hx, tally_of_same (s := (x, y)) hpair hx, List.map_append, List.map_dropLast, ← hx]
      rfl
    · have hstarts : Starts points x := by
        intro q hq
        obtain rfl := Option.some.inj (hlast.symm.trans hq)
        exact hx
      have hnew : ∀ g ∈ (points.map Point.pair).getLast?, g.1 ≠ x := by
        intro g hg
        obtain rfl := Option.some.inj (hpair.symm.trans hg)
        exact hx
      rw [record_of_starts hstarts, tally_of_new hnew, List.map_append]
      rfl

end ScrollingBuffer

namespace PlotThroughput

variable {p q : PlotThroughput} {sizes averages : List (Point UInt64)} {w : Nat}

/-- The second and the size that a call stands for. -/
def Call.sample (c : Call) : UInt64 × UInt64 := (c.x, c.dataSize)

theorem addData_record (h : Holds w sizes averages p) (hw : 0 < w) (c : Call) :
    ∃ q averages', p.addData c = some q ∧
      Holds w (ScrollingBuffer.record sizes (.addToHisto c.x c.dataSize)) averages' q := by
  by_cases hstarts : ScrollingBuffer.Starts sizes c.x
  · obtain ⟨q, y, hadd, -, -, hq, -⟩ := addData_starts h hw hstarts
    rw [← ScrollingBuffer.record_of_starts hstarts] at hq
    exact ⟨q, _, hadd, hq⟩
  · obtain ⟨q, hadd, -, hq, -⟩ := addData_adds h hw hstarts
    exact ⟨q, _, hadd, hq⟩

/-- The sizes there were are those of the calls, tallied. -/
theorem exec_tallies (h : Holds w sizes averages p) (hw : 0 < w) (calls : List Call) :
    ∃ q sizes' averages', exec addData p calls = some q ∧ Holds w sizes' averages' q ∧
      sizes'.map Point.pair = (calls.map Call.sample).foldl tally (sizes.map Point.pair) := by
  induction calls generalizing p sizes averages with
  | nil => exact ⟨p, sizes, averages, rfl, h, rfl⟩
  | cons c calls ih =>
    obtain ⟨r, _, hadd, hr⟩ := addData_record h hw c
    obtain ⟨q, sizes', averages', hexec, hq, htally⟩ := ih hr
    refine ⟨q, sizes', averages', ?_, hq, ?_⟩
    · rw [exec_cons hadd]
      exact hexec
    · rw [htally, ScrollingBuffer.map_pair_record]
      rfl

/-- What a plot draws after calls in the order of their seconds. -/
theorem series_of_exec {window : UInt64} {fresh : PlotThroughput}
    (hfresh : construct window = some fresh) (hpos : 0 < window.toUInt32.toInt32.toNatClampNeg)
    {calls : List Call} (hclock : calls.Pairwise fun c d => c.x ≤ d.x)
    (hexec : exec addData fresh calls = some p) :
    ∃ plot series, p.drawPlot = some plot ∧
      plot.throughput.map Point.pair = series.rtake window.toUInt32.toInt32.toNatClampNeg ∧
      IsHistogram (calls.map Call.sample) series ∧
      (series.map Prod.snd).sum = (calls.map Call.dataSize).sum := by
  obtain ⟨p', sizes, averages, hexec', hp, htally⟩ :=
    exec_tallies (construct_holds hfresh) hpos calls
  obtain rfl := Option.some.inj (hexec.symm.trans hexec')
  have hsorted : (calls.map Call.sample).Pairwise fun s t => s.1 ≤ t.1 :=
    List.pairwise_map.mpr hclock
  refine ⟨_, _, hp.drawPlot_eq, ?_, isHistogram_foldl_tally hsorted, ?_⟩
  · show (sizes.rtake _).map Point.pair = _
    rw [← map_rtake, htally]
    rfl
  · rw [sum_foldl_tally, List.map_map]
    exact zero_add _

/-- After calls on a fresh plot whose clock has not run backwards, the throughput drawn is the
end of a series with one point for each second that had a call, in order. The point has all the
bytes of that second, and the series all the bytes there were, as 64 bits count them. -/
theorem draws_histogram (window : UInt64) (h : 1 ≤ window.toUInt32.toInt32) (calls : List Call)
    (hclock : calls.Pairwise fun c d => c.x ≤ d.x) :
    ∃ fresh p plot series, construct window = some fresh ∧ exec addData fresh calls = some p ∧
      p.drawPlot = some plot ∧
      plot.throughput.map Point.pair = series.rtake window.toUInt32.toInt32.toNatClampNeg ∧
      IsHistogram (calls.map Call.sample) series ∧
      (series.map Prod.snd).sum = (calls.map Call.dataSize).sum := by
  obtain ⟨hpos, -⟩ := ScrollingBuffer.exists_construct (E := UInt64) h
  obtain ⟨fresh, p, hfresh, hexec⟩ := runs_of_window h calls
  obtain ⟨plot, series, hplot⟩ := series_of_exec hfresh hpos hclock hexec
  exact ⟨fresh, p, plot, series, hfresh, hexec, hplot⟩

/-- Two calls in one second, and one after a second without any. -/
theorem two_seconds_drawn :
    ∃ fresh p plot series, construct 2 = some fresh ∧
      exec addData fresh [⟨5, 10⟩, ⟨5, 3⟩, ⟨7, 1⟩] = some p ∧ p.drawPlot = some plot ∧
      plot.throughput.map Point.pair = series.rtake 2 ∧
      IsHistogram [(5, 10), (5, 3), (7, 1)] series ∧ (series.map Prod.snd).sum = 14 :=
  draws_histogram 2 (by decide) [⟨5, 10⟩, ⟨5, 3⟩, ⟨7, 1⟩] (by decide)

end PlotThroughput

end DeviceTester.Gui
