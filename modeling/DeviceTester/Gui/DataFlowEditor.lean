import DeviceTester.Connection.Options
import DeviceTester.Lib.Forest

/-!
# The tree of `gui::DataFlowEditor::drawContent`

`renderNodeDisplayTree` is not in this repository. It walks the forest of display nodes and calls
back on entering an inner node, on a leaf and on leaving an inner node. The callback keeps one
flag and one level.
-/
namespace DeviceTester.Gui

open DeviceTester.Connection DeviceTester.Lib

/-- A leaf, and whether it is being dragged. -/
structure DisplayLeaf where
  key : Bytes
  name : Bytes
  dragged : Bool
  deriving DecidableEq, Repr

/-- An inner node, and what `ImGui::TreeNode` returns for it. -/
structure DisplayInner where
  key : Bytes
  name : Bytes
  opened : Bool
  deriving DecidableEq, Repr

abbrev DisplayForest := Forest DisplayInner DisplayLeaf

/-- The calls of ImGui. -/
inductive UiCall where
  | treeNode (name : Bytes) (result : Bool)
  | treePop
  | smallButton (name : Bytes)
  | setDragDropPayload (type key : Bytes)
  | text (name : Bytes)
  | endDragDropSource
  deriving DecidableEq, Repr

def UiCall.button : UiCall → Option Bytes
  | .smallButton name => some name
  | _ => none

def UiCall.node : UiCall → Option (Bytes × Bool)
  | .treeNode name result => some (name, result)
  | _ => none

namespace DataFlowEditor

def kDndTarget : Bytes := text "DND_DATAFLOW"

/-- The arguments of the callback, and what `TreeNode` or `BeginDragDropSource` answers if it is
called. -/
structure Visit where
  prevLevel : Int
  level : Int
  isLeaf : Bool
  nodeKey : Bytes
  nodeName : Bytes
  answer : Bool
  deriving DecidableEq, Repr

/-- The variables that the callback captures, and the calls made so far. -/
structure Drawing where
  needNextDraw : Bool
  levelDraw : Int
  calls : List UiCall
  deriving DecidableEq, Repr

def drawLeaf (nodeKey nodeName : Bytes) (dragged : Bool) : List UiCall :=
  .smallButton nodeName ::
    if dragged then
      [.setDragDropPayload kDndTarget nodeKey, .text nodeName, .endDragDropSource]
    else []

def callback (s : Drawing) (v : Visit) : Drawing :=
  if !s.needNextDraw && decide (s.levelDraw < v.level) then s
  else if !v.isLeaf && decide (v.prevLevel < v.level) then
    { needNextDraw := v.answer
      levelDraw := v.level
      calls := s.calls ++ [.treeNode v.nodeName v.answer] }
  else if !v.isLeaf && decide (v.prevLevel = v.level) then
    { needNextDraw := true
      levelDraw := 0
      calls := if s.needNextDraw then s.calls ++ [.treePop] else s.calls }
  else if v.isLeaf && decide (v.prevLevel < v.level) then
    { s with calls := s.calls ++ drawLeaf v.nodeKey v.nodeName v.answer }
  else s

/-- How `renderNodeDisplayTree` calls back for a forest whose roots are at `depth`. -/
def visits (depth : Int) : DisplayForest → List Visit
  | .nil => []
  | .leaf a rest => ⟨depth - 1, depth, true, a.key, a.name, a.dragged⟩ :: visits depth rest
  | .inner a children rest =>
      ⟨depth - 1, depth, false, a.key, a.name, a.opened⟩ :: visits (depth + 1) children ++
        ⟨depth, depth, false, a.key, a.name, a.opened⟩ :: visits depth rest

/-- The calls that `drawContent` makes for the forest. -/
def drawTree (f : DisplayForest) : List UiCall :=
  ((visits 0 f).foldl callback ⟨true, -1, []⟩).calls

/-! ## What is to be drawn -/

def treeCalls : DisplayForest → List UiCall
  | .nil => []
  | .leaf a rest => drawLeaf a.key a.name a.dragged ++ treeCalls rest
  | .inner a children rest =>
      .treeNode a.name a.opened :: (if a.opened then treeCalls children ++ [.treePop] else []) ++
        treeCalls rest

/-- Each `TreeNode` that has returned true is closed by one `TreePop`, and each `TreePop` closes
one. -/
inductive Nested : List UiCall → Prop where
  | nil : Nested []
  | leaf (key name : Bytes) (dragged : Bool) {rest : List UiCall} (hrest : Nested rest) :
      Nested (drawLeaf key name dragged ++ rest)
  | closed (name : Bytes) {rest : List UiCall} (hrest : Nested rest) :
      Nested (.treeNode name false :: rest)
  | opened (name : Bytes) {inside rest : List UiCall} (hinside : Nested inside)
      (hrest : Nested rest) : Nested (.treeNode name true :: inside ++ .treePop :: rest)

/-! ## The flag and the level -/

/-- Below a closed node the callback does nothing. -/
theorem callback_below {s : Drawing} {v : Visit} (hclosed : s.needNextDraw = false)
    (hlevel : s.levelDraw < v.level) : callback s v = s := by
  rw [callback, hclosed, decide_eq_true hlevel]
  rfl

theorem foldl_below {s : Drawing} (hclosed : s.needNextDraw = false) (f : DisplayForest)
    {depth : Int} (hdepth : s.levelDraw < depth) : (visits depth f).foldl callback s = s := by
  induction f generalizing depth with
  | nil => rfl
  | leaf a rest ih =>
    rw [visits, List.foldl_cons, callback_below hclosed hdepth]
    exact ih hdepth
  | inner a children rest ihChildren ihRest =>
    have hchildren := ihChildren (Int.lt_trans hdepth (Int.lt_succ depth))
    rw [visits, List.cons_append, List.foldl_cons, callback_below hclosed hdepth,
      List.foldl_append, hchildren, List.foldl_cons, callback_below hclosed hdepth]
    exact ihRest hdepth

theorem callback_leaf (level depth : Int) (calls : List UiCall) (a : DisplayLeaf) :
    callback ⟨true, level, calls⟩ ⟨depth - 1, depth, true, a.key, a.name, a.dragged⟩ =
      ⟨true, level, calls ++ drawLeaf a.key a.name a.dragged⟩ := by
  have hprev : depth - 1 < depth := by omega
  simp [callback, hprev]

theorem callback_enter (level depth : Int) (calls : List UiCall) (a : DisplayInner) :
    callback ⟨true, level, calls⟩ ⟨depth - 1, depth, false, a.key, a.name, a.opened⟩ =
      ⟨a.opened, depth, calls ++ [.treeNode a.name a.opened]⟩ := by
  have hprev : depth - 1 < depth := by omega
  simp [callback, hprev]

theorem callback_leave_opened (level depth : Int) (calls : List UiCall) (a : DisplayInner) :
    callback ⟨true, level, calls⟩ ⟨depth, depth, false, a.key, a.name, a.opened⟩ =
      ⟨true, 0, calls ++ [.treePop]⟩ := by
  simp [callback]

/-- A closed node is left at the level at which the drawing stopped. -/
theorem callback_leave_closed (depth : Int) (calls : List UiCall) (a : DisplayInner) :
    callback ⟨false, depth, calls⟩ ⟨depth, depth, false, a.key, a.name, a.opened⟩ =
      ⟨true, 0, calls⟩ := by
  simp [callback]

/-- While the flag is set the level does not matter, and after every tree the flag is set again.
The induction is on the forest: below a closed node the lemma above applies instead. -/
theorem foldl_visits (f : DisplayForest) (depth level : Int) (calls : List UiCall) :
    ∃ level', (visits depth f).foldl callback ⟨true, level, calls⟩ =
      ⟨true, level', calls ++ treeCalls f⟩ := by
  induction f generalizing depth level calls with
  | nil => exact ⟨level, by simp [visits, treeCalls]⟩
  | leaf a rest ih =>
    obtain ⟨level', hrest⟩ := ih depth level (calls ++ drawLeaf a.key a.name a.dragged)
    refine ⟨level', ?_⟩
    rw [visits, List.foldl_cons, callback_leaf, hrest, treeCalls, List.append_assoc]
  | inner a children rest ihChildren ihRest =>
    rw [visits, List.cons_append, List.foldl_cons, callback_enter, List.foldl_append,
      List.foldl_cons, treeCalls]
    cases hopened : a.opened with
    | true =>
      obtain ⟨below, hchildren⟩ :=
        ihChildren (depth + 1) depth (calls ++ [.treeNode a.name true])
      have hleave := callback_leave_opened below depth
        (calls ++ [.treeNode a.name true] ++ treeCalls children) a
      rw [hopened] at hleave
      obtain ⟨level', hrest⟩ := ihRest depth 0
        (calls ++ [.treeNode a.name true] ++ treeCalls children ++ [.treePop])
      refine ⟨level', ?_⟩
      rw [hchildren, hleave, hrest]
      simp
    | false =>
      have hchildren := foldl_below (s := ⟨false, depth, calls ++ [.treeNode a.name false]⟩) rfl
        children (Int.lt_succ depth)
      have hleave := callback_leave_closed depth (calls ++ [.treeNode a.name false]) a
      rw [hopened] at hleave
      obtain ⟨level', hrest⟩ := ihRest depth 0 (calls ++ [.treeNode a.name false])
      refine ⟨level', ?_⟩
      rw [hchildren, hleave, hrest]
      simp

theorem drawTree_eq (f : DisplayForest) : drawTree f = treeCalls f := by
  obtain ⟨level', h⟩ := foldl_visits f 0 (-1) []
  rw [drawTree, h]
  rfl

/-! ## What the calls say -/

theorem button_drawLeaf (key name : Bytes) (dragged : Bool) :
    (drawLeaf key name dragged).filterMap UiCall.button = [name] := by
  cases dragged <;> rfl

theorem node_drawLeaf (key name : Bytes) (dragged : Bool) :
    (drawLeaf key name dragged).filterMap UiCall.node = [] := by
  cases dragged <;> rfl

theorem button_treeCalls (f : DisplayForest) :
    (treeCalls f).filterMap UiCall.button =
      (f.shownLeaves DisplayInner.opened).map DisplayLeaf.name := by
  induction f with
  | nil => rfl
  | leaf a rest ih =>
    rw [treeCalls, List.filterMap_append, button_drawLeaf, ih]
    rfl
  | inner a children rest ihChildren ihRest =>
    rw [treeCalls, List.cons_append, Forest.shownLeaves]
    cases a.opened with
    | true => simp [List.filterMap_cons, UiCall.button, ihChildren, ihRest]
    | false => simp [List.filterMap_cons, UiCall.button, ihRest]

theorem node_treeCalls (f : DisplayForest) :
    (treeCalls f).filterMap UiCall.node =
      (f.shownInners DisplayInner.opened).map fun a => (a.name, a.opened) := by
  induction f with
  | nil => rfl
  | leaf a rest ih =>
    rw [treeCalls, List.filterMap_append, node_drawLeaf, ih]
    rfl
  | inner a children rest ihChildren ihRest =>
    rw [treeCalls, List.cons_append, Forest.shownInners]
    cases hopened : a.opened with
    | true => simp [List.filterMap_cons, UiCall.node, ihChildren, hopened, ihRest]
    | false => simp [UiCall.node, ihRest, hopened]

theorem nested_treeCalls (f : DisplayForest) : Nested (treeCalls f) := by
  induction f with
  | nil => exact .nil
  | leaf a rest ih => exact .leaf a.key a.name a.dragged ih
  | inner a children rest ihChildren ihRest =>
    rw [treeCalls]
    cases a.opened with
    | true =>
      have hnested := Nested.opened a.name ihChildren ihRest
      simpa using hnested
    | false => exact .closed a.name ihRest

/-- A leaf is drawn exactly where all inner nodes above it are open, `TreeNode` is called exactly
for the inner nodes below open ones, in the order of the forest, and the calls nest. -/
theorem drawTree_draws_shown (f : DisplayForest) :
    drawTree f = treeCalls f ∧
    (drawTree f).filterMap UiCall.button =
      ((f.leaves.filter fun l => l.1.all DisplayInner.opened).map Prod.snd).map
        DisplayLeaf.name ∧
    (drawTree f).filterMap UiCall.node =
      ((f.inners.filter fun n => n.1.all DisplayInner.opened).map Prod.snd).map
        (fun a => (a.name, a.opened)) ∧
    Nested (drawTree f) := by
  rw [drawTree_eq, ← Forest.shownLeaves_eq, ← Forest.shownInners_eq]
  exact ⟨rfl, button_treeCalls f, node_treeCalls f, nested_treeCalls f⟩

/-- A closed node with a leaf in an open one, and a leaf after it. -/
example :
    drawTree (.inner ⟨[], [1], true⟩
      (.inner ⟨[], [2], false⟩ (.leaf ⟨[], [3], false⟩ .nil) (.leaf ⟨[], [4], false⟩ .nil)) .nil) =
      [.treeNode [1] true, .treeNode [2] false, .smallButton [4], .treePop] := by
  decide

end DataFlowEditor

end DeviceTester.Gui
