import Mathlib.Data.List.Basic

/-!
# Ordered forests whose inner nodes are open or closed

A forest is given by its first tree and the trees after it. A node is shown where all inner nodes
above it are open.
-/
namespace DeviceTester.Lib

/-- `ι` labels inner nodes, and `κ` leaves. -/
inductive Forest (ι κ : Type*) where
  | nil
  | leaf (a : κ) (rest : Forest ι κ)
  | inner (a : ι) (children rest : Forest ι κ)
  deriving DecidableEq, Repr

namespace Forest

variable {ι κ : Type*}

/-- The leaves in order, each with the inner nodes above it, when `above` are above all. -/
def leavesBelow (above : List ι) : Forest ι κ → List (List ι × κ)
  | nil => []
  | leaf a rest => (above, a) :: leavesBelow above rest
  | inner a children rest => leavesBelow (above ++ [a]) children ++ leavesBelow above rest

def innersBelow (above : List ι) : Forest ι κ → List (List ι × ι)
  | nil => []
  | leaf _ rest => innersBelow above rest
  | inner a children rest =>
      (above, a) :: innersBelow (above ++ [a]) children ++ innersBelow above rest

def leaves (f : Forest ι κ) : List (List ι × κ) := f.leavesBelow []

def inners (f : Forest ι κ) : List (List ι × ι) := f.innersBelow []

variable (isOpen : ι → Bool)

/-- The leaves that are reached when closed nodes are passed over. -/
def shownLeaves : Forest ι κ → List κ
  | nil => []
  | leaf a rest => a :: shownLeaves rest
  | inner a children rest =>
      (if isOpen a then shownLeaves children else []) ++ shownLeaves rest

def shownInners : Forest ι κ → List ι
  | nil => []
  | leaf _ rest => shownInners rest
  | inner a children rest =>
      a :: (if isOpen a then shownInners children else []) ++ shownInners rest

variable {isOpen}

theorem all_concat (above : List ι) (a : ι) :
    (above ++ [a]).all isOpen = (above.all isOpen && isOpen a) := by
  rw [List.all_append, List.all_cons, List.all_nil, Bool.and_true]

/-- Below a closed node nothing is shown, and elsewhere what the walk shows. -/
theorem filter_leavesBelow (above : List ι) (f : Forest ι κ) :
    ((f.leavesBelow above).filter fun l => l.1.all isOpen).map Prod.snd =
      if above.all isOpen then f.shownLeaves isOpen else [] := by
  induction f generalizing above with
  | nil => simp [leavesBelow, shownLeaves]
  | leaf a rest ih =>
    rw [leavesBelow, List.filter_cons, shownLeaves]
    cases habove : above.all isOpen with
    | true => simp [ih, habove]
    | false => simp [ih, habove]
  | inner a children rest ihChildren ihRest =>
    rw [leavesBelow, List.filter_append, List.map_append, ihChildren, ihRest, all_concat,
      shownLeaves]
    cases above.all isOpen with
    | true => simp
    | false => simp

theorem filter_innersBelow (above : List ι) (f : Forest ι κ) :
    ((f.innersBelow above).filter fun n => n.1.all isOpen).map Prod.snd =
      if above.all isOpen then f.shownInners isOpen else [] := by
  induction f generalizing above with
  | nil => simp [innersBelow, shownInners]
  | leaf a rest ih => rw [innersBelow, ih, shownInners]
  | inner a children rest ihChildren ihRest =>
    rw [innersBelow, List.cons_append, List.filter_cons, List.filter_append, shownInners]
    have hchildren := ihChildren (above ++ [a])
    have hrest := ihRest above
    rw [all_concat] at hchildren
    cases habove : above.all isOpen with
    | true =>
      rw [habove] at hchildren hrest
      simp [hchildren, hrest]
    | false =>
      rw [habove] at hchildren hrest
      simp [hchildren, hrest]

theorem shownLeaves_eq (f : Forest ι κ) :
    f.shownLeaves isOpen = (f.leaves.filter fun l => l.1.all isOpen).map Prod.snd :=
  (filter_leavesBelow [] f).symm

theorem shownInners_eq (f : Forest ι κ) :
    f.shownInners isOpen = (f.inners.filter fun n => n.1.all isOpen).map Prod.snd :=
  (filter_innersBelow [] f).symm

end Forest

end DeviceTester.Lib
