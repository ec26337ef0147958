import Mathlib.Data.List.Forall2
import Neroshop.Lib.CStr
import Neroshop.Lib.Ints

/-!
# Message — the children of the box

`message.cpp`: `draw_children`. A button, an edit or a label has its place on
the screen and its place relative to the box; the drawing itself changes
neither. A sum or a difference of two `int` is taken modulo 2^32.

The three loops of `draw_children` are kept apart: buttons and edits have a rule
for each side, labels compare `int` with `std::size_t` and have their text for a
width. `Message.clamps_iff` says which messages are drawn inside their box, and
that a second drawing changes nothing.
-/

namespace Neroshop.MessageBox

open Lib.CStr Lib.Ints

/-- The box of a message. -/
structure Box where
  x : Int32
  y : Int32
  width : Int32
  height : Int32

/-- The place of a child, on the screen and inside the box. -/
structure Widget where
  x : Int32
  y : Int32
  relativeX : Int32
  relativeY : Int32

/-- `set_position` -/
def Widget.setPosition (w : Widget) (x y : Int32) : Widget := { w with x := x, y := y }

/-- `set_relative_position` -/
def Widget.setRelativePosition (w : Widget) (x y : Int32) : Widget :=
  { w with relativeX := x, relativeY := y }

/-- A `Button` or an `Edit`. -/
structure Child where
  widget : Widget
  width : Int32
  height : Int32

/-- A label. -/
structure Label where
  widget : Widget
  string : Bytes

/-- `labels->get_string().length() * 10` -/
def Label.extent (l : Label) : UInt64 := .ofNat l.string.length * 10

/-- The box, with its children. -/
structure Message where
  box : Option Box
  buttonList : List Child
  editList : List Child
  labelList : List Label

section Draw

variable (box : Box)

/-! The statements of the three loops, in their order. -/

/-- The place inside the box, on the screen. -/
def relativeToBox (w : Widget) : Widget :=
  w.setPosition (box.x + w.relativeX) (box.y + w.relativeY)

/-- The right side, for a child of this width. -/
def keepRight (width : Int32) (w : Widget) : Widget :=
  if w.relativeX ≥ box.width - width then
    (w.setPosition (box.x + (box.width - width)) w.y).setRelativePosition
      (box.width - width) w.relativeY
  else w

/-- The right side, for a label: the length of a string is a `std::size_t`,
and so are the sums and differences with it, and the comparison. -/
def keepLabelRight (extent : UInt64) (w : Widget) : Widget :=
  if toSize w.relativeX ≥ toSize box.width - extent then
    (w.setPosition (toInt32 (toSize box.x + (toSize box.width - extent)))
      w.y).setRelativePosition (toInt32 (toSize box.width - extent)) w.relativeY
  else w

/-- A child to the left of the box goes to its left side. -/
def keepLeft (w : Widget) : Widget := if w.x ≤ box.x then w.setPosition box.x w.y else w

/-- A child above the box goes to its top. -/
def keepTop (w : Widget) : Widget := if w.y ≤ box.y then w.setPosition w.x box.y else w

/-- A child below the box goes to its bottom, and stays there. -/
def keepBottom (height : Int32) (w : Widget) : Widget :=
  if w.relativeY ≥ box.height - height then
    (w.setPosition w.x (box.y + (box.height - height))).setRelativePosition
      w.relativeX (box.height - height)
  else w

/-- One turn of the first loop, and of the second. -/
def drawChild (c : Child) : Child :=
  { c with
    widget := keepBottom box c.height (keepTop box (keepLeft box
      (keepRight box c.width (relativeToBox box c.widget)))) }

/-- One turn of the third loop. -/
def drawLabel (l : Label) : Label :=
  { l with
    widget := keepBottom box 10 (keepTop box (keepLeft box
      (keepLabelRight box l.extent (relativeToBox box l.widget)))) }

/-- The box draws its own label, the first one. -/
def drawLabels : List Label → List Label
  | [] => []
  | label :: labels => label :: labels.map (drawLabel box)

end Draw

/-- `draw_children`, or what it throws. -/
def Message.drawChildren (m : Message) : Except Bytes Message :=
  match m.box with
  | none => .error (ascii "message box is not initialized")
  | some box =>
      if m.buttonList.isEmpty && m.editList.isEmpty && m.labelList.isEmpty then .ok m
      else
        .ok { m with
          buttonList := m.buttonList.map (drawChild box)
          editList := m.editList.map (drawChild box)
          labelList := drawLabels box m.labelList }

/-! ## What a turn does -/

/-- The larger one. -/
def atLeast (origin p : Int32) : Int32 := if p ≤ origin then origin else p

/-- The smaller one. -/
def stop (limit r : Int32) : Int32 := if r ≥ limit then limit else r

/-- The smaller one, for numbers that are not negative. -/
def labelStop (width : Int32) (extent : UInt64) (r : Int32) : Int32 :=
  if toSize r ≥ toSize width - extent then toInt32 (toSize width - extent) else r

/-- The place after a turn, by the rule for the right side: it depends on the
relative place only. -/
def settle (box : Box) (height : Int32) (right : Int32 → Int32) (w : Widget) : Widget where
  x := atLeast box.x (box.x + right w.relativeX)
  y :=
    if w.relativeY ≥ box.height - height then box.y + (box.height - height)
    else atLeast box.y (box.y + w.relativeY)
  relativeX := right w.relativeX
  relativeY := stop (box.height - height) w.relativeY

section Turn

variable (box : Box)

theorem keepRight_eq (width : Int32) (w : Widget) :
    keepRight box width (relativeToBox box w) =
      ⟨box.x + stop (box.width - width) w.relativeX, box.y + w.relativeY,
        stop (box.width - width) w.relativeX, w.relativeY⟩ := by
  unfold stop
  by_cases h : w.relativeX ≥ box.width - width
  · rw [if_pos h]
    exact if_pos h
  · rw [if_neg h]
    exact if_neg h

theorem keepLabelRight_eq (extent : UInt64) (w : Widget) :
    keepLabelRight box extent (relativeToBox box w) =
      ⟨box.x + labelStop box.width extent w.relativeX, box.y + w.relativeY,
        labelStop box.width extent w.relativeX, w.relativeY⟩ := by
  unfold labelStop
  by_cases h : toSize w.relativeX ≥ toSize box.width - extent
  · rw [if_pos h, ← toInt32_toSize_add]
    exact if_pos h
  · rw [if_neg h]
    exact if_neg h

theorem keepLeft_eq (x y relativeX relativeY : Int32) :
    keepLeft box ⟨x, y, relativeX, relativeY⟩ =
      ⟨atLeast box.x x, y, relativeX, relativeY⟩ := by
  unfold keepLeft atLeast
  dsimp only
  split <;> rfl

theorem keepTop_eq (x y relativeX relativeY : Int32) :
    keepTop box ⟨x, y, relativeX, relativeY⟩ =
      ⟨x, atLeast box.y y, relativeX, relativeY⟩ := by
  unfold keepTop atLeast
  dsimp only
  split <;> rfl

theorem keepBottom_eq (height x y relativeX relativeY : Int32) :
    keepBottom box height ⟨x, y, relativeX, relativeY⟩ =
      ⟨x, if relativeY ≥ box.height - height then box.y + (box.height - height) else y,
        relativeX, stop (box.height - height) relativeY⟩ := by
  unfold keepBottom stop
  dsimp only
  split <;> rfl

theorem drawChild_eq (c : Child) :
    drawChild box c =
      { c with widget := settle box c.height (stop (box.width - c.width)) c.widget } := by
  rw [drawChild, keepRight_eq, keepLeft_eq, keepTop_eq, keepBottom_eq]
  rfl

theorem drawLabel_eq (l : Label) :
    drawLabel box l =
      { l with widget := settle box 10 (labelStop box.width l.extent) l.widget } := by
  rw [drawLabel, keepLabelRight_eq, keepLeft_eq, keepTop_eq, keepBottom_eq]
  rfl

end Turn

/-! ## Drawing twice -/

theorem stop_stop (limit r : Int32) : stop limit (stop limit r) = stop limit r := by
  unfold stop
  split
  · exact ite_self limit
  · rfl

theorem labelStop_labelStop (width : Int32) (extent : UInt64) (r : Int32) :
    labelStop width extent (labelStop width extent r) = labelStop width extent r := by
  unfold labelStop
  split
  · exact ite_self _
  · rfl

theorem ge_stop_iff (limit r : Int32) : stop limit r ≥ limit ↔ r ≥ limit := by
  unfold stop
  split
  · next h => exact iff_of_true (Int32.le_refl limit) h
  · exact Iff.rfl

theorem settle_settle (box : Box) (height : Int32) {right : Int32 → Int32}
    (hright : ∀ r, right (right r) = right r) (w : Widget) :
    settle box height right (settle box height right w) = settle box height right w := by
  unfold settle
  dsimp only
  rw [hright, stop_stop]
  simp only [ge_stop_iff]
  congr 1
  unfold stop
  split <;> rfl

theorem drawChild_drawChild (box : Box) (c : Child) :
    drawChild box (drawChild box c) = drawChild box c := by
  rw [drawChild_eq, drawChild_eq]
  dsimp only
  rw [settle_settle box c.height (stop_stop _)]

theorem drawLabel_drawLabel (box : Box) (l : Label) :
    drawLabel box (drawLabel box l) = drawLabel box l := by
  rw [drawLabel_eq, drawLabel_eq]
  show Label.mk (settle box 10 (labelStop box.width l.extent) _) l.string = _
  rw [settle_settle box 10 (labelStop_labelStop _ _)]

/-! ## Where a child is placed -/

/-- An extent that fits in the box. -/
structure Fits (box : Box) (width height : Int) : Prop where
  width_le : width ≤ box.width.toInt
  height_le : height ≤ box.height.toInt

/-- The sums and differences for a widget of this extent are all `int`. -/
structure Representable (box : Box) (width height : Int) (w : Widget) : Prop where
  x : InRange (box.x.toInt + w.relativeX.toInt)
  y : InRange (box.y.toInt + w.relativeY.toInt)
  spaceX : InRange (box.width.toInt - width)
  spaceY : InRange (box.height.toInt - height)
  right : InRange (box.x.toInt + (box.width.toInt - width))
  bottom : InRange (box.y.toInt + (box.height.toInt - height))

/-- The relative place, kept inside the box. -/
structure Clamped (box : Box) (width height : Int) (w w' : Widget) : Prop where
  x_eq : w'.x.toInt =
    box.x.toInt + min (max w.relativeX.toInt 0) (box.width.toInt - width)
  y_eq : w'.y.toInt =
    box.y.toInt + min (max w.relativeY.toInt 0) (box.height.toInt - height)

/-- A widget of an extent that fits is clamped. -/
def Placed (box : Box) (width height : Int) (w w' : Widget) : Prop :=
  Fits box width height → Representable box width height w → Clamped box width height w w'

theorem toInt_atLeast (origin p : Int32) :
    (atLeast origin p).toInt = max origin.toInt p.toInt := by
  unfold atLeast
  split
  · next h =>
      rw [Int32.le_iff_toInt_le] at h
      omega
  · next h =>
      rw [Int32.le_iff_toInt_le] at h
      omega

theorem toInt_stop (limit r : Int32) : (stop limit r).toInt = min r.toInt limit.toInt := by
  unfold stop
  split
  · next h =>
      rw [ge_iff_le, Int32.le_iff_toInt_le] at h
      omega
  · next h =>
      rw [ge_iff_le, Int32.le_iff_toInt_le] at h
      omega

/-- The place to the right, for a child that is stopped at `s`. -/
theorem settle_x {box : Box} {height : Int32} {right : Int32 → Int32} {w : Widget} {s : Int}
    (hright : (right w.relativeX).toInt = s) (hs : InRange (box.x.toInt + s)) :
    (settle box height right w).x.toInt = box.x.toInt + max s 0 := by
  show (atLeast box.x (box.x + right w.relativeX)).toInt = _
  rw [toInt_atLeast, toInt_add (hright ▸ hs), hright]
  omega

theorem settle_y {box : Box} {height : Int32} {right : Int32 → Int32} {w : Widget}
    (hheight : height.toInt ≤ box.height.toInt)
    (hy : InRange (box.y.toInt + w.relativeY.toInt))
    (hspace : InRange (box.height.toInt - height.toInt))
    (hbottom : InRange (box.y.toInt + (box.height.toInt - height.toInt))) :
    (settle box height right w).y.toInt =
      box.y.toInt + min (max w.relativeY.toInt 0) (box.height.toInt - height.toInt) := by
  have hlimit : (box.height - height).toInt = box.height.toInt - height.toInt :=
    toInt_sub hspace
  unfold settle
  dsimp only
  split
  · next h =>
      rw [ge_iff_le, Int32.le_iff_toInt_le, hlimit] at h
      rw [toInt_add (by rwa [hlimit]), hlimit]
      omega
  · next h =>
      rw [ge_iff_le, Int32.le_iff_toInt_le, hlimit] at h
      rw [toInt_atLeast, toInt_add hy]
      omega

theorem inRange_min {b m n : Int} (hm : InRange (b + m)) (hn : InRange (b + n)) :
    InRange (b + min m n) := by
  unfold InRange at *
  omega

theorem drawChild_placed (box : Box) (c : Child) :
    Placed box c.width.toInt c.height.toInt c.widget (drawChild box c).widget := by
  intro hfits hrep
  rw [drawChild_eq]
  have hstop : (stop (box.width - c.width) c.widget.relativeX).toInt =
      min c.widget.relativeX.toInt (box.width.toInt - c.width.toInt) := by
    rw [toInt_stop, toInt_sub hrep.spaceX]
  have hwidth := hfits.width_le
  constructor
  · rw [settle_x hstop (inRange_min hrep.x hrep.right)]
    omega
  · exact settle_y hfits.height_le hrep.y hrep.spaceY hrep.bottom

/-! ### Labels -/

theorem toNat_extent {l : Label} (h : 10 * l.string.length ≤ 2147483647) :
    l.extent.toNat = 10 * l.string.length := by
  unfold Label.extent
  rw [UInt64.toNat_mul, UInt64.toNat_ofNat']
  show l.string.length % 18446744073709551616 * 10 % 18446744073709551616 = _
  omega

/-- What is left of the width of the box beside a label that fits. -/
theorem toNat_space {box : Box} {l : Label}
    (h : 10 * (l.string.length : Int) ≤ box.width.toInt) :
    ((toSize box.width - l.extent).toNat : Int) =
      box.width.toInt - 10 * l.string.length := by
  have hle := box.width.toInt_le
  have hmax : Int32.maxValue.toInt = 2147483647 := rfl
  have hextent : l.extent.toNat = 10 * l.string.length := toNat_extent (by omega)
  have hwidth := toNat_toSize box.width
  rw [if_pos (by omega)] at hwidth
  rw [UInt64.toNat_sub_of_le]
  · omega
  · rw [UInt64.le_iff_toNat_le]
    omega

/-- A label to the left of the box is taken for one far to the right. -/
theorem toInt_labelStop {box : Box} {l : Label}
    (h : 10 * (l.string.length : Int) ≤ box.width.toInt) (r : Int32) :
    (labelStop box.width l.extent r).toInt =
      if r.toInt < 0 then box.width.toInt - 10 * l.string.length
      else min r.toInt (box.width.toInt - 10 * l.string.length) := by
  have hspace := toNat_space h
  have hr := toNat_toSize r
  have hlow := (inRange_toInt r).1
  have hwidth := inRange_toInt box.width
  unfold InRange at hwidth
  have hint : (toInt32 (toSize box.width - l.extent)).toInt =
      box.width.toInt - 10 * l.string.length := by
    rw [toInt32_of_inRange, hspace]
    unfold InRange
    omega
  unfold labelStop
  split
  · next hge =>
      rw [ge_iff_le, UInt64.le_iff_toNat_le] at hge
      rw [hint]
      split
      · rfl
      · next hneg =>
          rw [if_pos (by omega)] at hr
          omega
  · next hlt =>
      rw [ge_iff_le, UInt64.le_iff_toNat_le] at hlt
      split
      · next hneg =>
          rw [if_neg (by omega)] at hr
          omega
      · next hneg =>
          rw [if_pos (by omega)] at hr
          omega

/-- Not to the left of the box, or as wide as the box. -/
def Label.Safe (box : Box) (l : Label) : Prop :=
  Fits box (10 * l.string.length) 10 → Representable box (10 * l.string.length) 10 l.widget →
    0 ≤ l.widget.relativeX.toInt ∨ 10 * (l.string.length : Int) = box.width.toInt

/-- The place to the right, for a label that fits. -/
theorem drawLabel_x {box : Box} {l : Label} (hfits : Fits box (10 * l.string.length) 10)
    (hrep : Representable box (10 * l.string.length) 10 l.widget) :
    (drawLabel box l).widget.x.toInt = box.x.toInt +
      if l.widget.relativeX.toInt < 0 then box.width.toInt - 10 * l.string.length
      else min l.widget.relativeX.toInt (box.width.toInt - 10 * l.string.length) := by
  have hwidth := hfits.width_le
  have hstop := toInt_labelStop hwidth l.widget.relativeX
  rw [drawLabel_eq, settle_x hstop]
  · split <;> omega
  · split
    · exact hrep.right
    · exact inRange_min hrep.x hrep.right

theorem drawLabel_placed_iff (box : Box) (l : Label) :
    Placed box (10 * l.string.length) 10 l.widget (drawLabel box l).widget ↔ l.Safe box := by
  apply imp_congr_right
  intro hfits
  apply imp_congr_right
  intro hrep
  have hwidth := hfits.width_le
  have hx := drawLabel_x hfits hrep
  constructor
  · intro h
    rw [h.x_eq] at hx
    by_contra hunsafe
    rw [not_or] at hunsafe
    rw [if_pos (by omega)] at hx
    omega
  · intro hsafe
    constructor
    · rw [hx]
      split <;> omega
    · rw [drawLabel_eq]
      exact settle_y hfits.height_le hrep.y hrep.spaceY hrep.bottom

/-! ## The whole message -/

/-- Buttons, edits and the labels behind the first are placed, and drawing
once more changes nothing. -/
structure Message.Drawn (box : Box) (m m' : Message) : Prop where
  buttons : List.Forall₂
    (fun c c' => Placed box c.width.toInt c.height.toInt c.widget c'.widget)
    m.buttonList m'.buttonList
  edits : List.Forall₂
    (fun c c' => Placed box c.width.toInt c.height.toInt c.widget c'.widget)
    m.editList m'.editList
  labels : List.Forall₂
    (fun l l' => Placed box (10 * l.string.length) 10 l.widget l'.widget)
    m.labelList.tail m'.labelList.tail
  again : m'.drawChildren = .ok m'

/-- The children are drawn inside the box. -/
def Message.Clamps (m : Message) : Prop :=
  ∀ box, m.box = some box → ∃ m', m.drawChildren = .ok m' ∧ m.Drawn box m'

theorem tail_drawLabels (box : Box) (labels : List Label) :
    (drawLabels box labels).tail = labels.tail.map (drawLabel box) := by
  cases labels <;> rfl

theorem drawLabels_drawLabels (box : Box) (labels : List Label) :
    drawLabels box (drawLabels box labels) = drawLabels box labels := by
  cases labels with
  | nil => rfl
  | cons label labels => simp [drawLabels, drawLabel_drawLabel]

theorem Message.drawChildren_eq {m : Message} {box : Box} (h : m.box = some box) :
    m.drawChildren = .ok { m with
      buttonList := m.buttonList.map (drawChild box)
      editList := m.editList.map (drawChild box)
      labelList := drawLabels box m.labelList } := by
  rcases m with ⟨_, buttons, edits, labels⟩
  cases h
  unfold drawChildren
  dsimp only
  split
  · next hempty =>
      simp only [Bool.and_eq_true, List.isEmpty_iff] at hempty
      rcases hempty with ⟨⟨rfl, rfl⟩, rfl⟩
      rfl
  · rfl

theorem drawn_children_placed (box : Box) (children : List Child) :
    List.Forall₂ (fun c c' => Placed box c.width.toInt c.height.toInt c.widget c'.widget)
      children (children.map (drawChild box)) := by
  rw [List.forall₂_map_right_iff, List.forall₂_same]
  intro c _
  exact drawChild_placed box c

/-- **When the children stay inside the box**: buttons and edits always do,
and a label that fits does unless it is to the left of a wider box. -/
theorem Message.clamps_iff (m : Message) :
    m.Clamps ↔ ∀ box, m.box = some box → ∀ l ∈ m.labelList.tail, l.Safe box := by
  apply forall_congr'
  intro box
  apply imp_congr_right
  intro hbox
  have hlabels : List.Forall₂
      (fun l l' => Placed box (10 * l.string.length) 10 l.widget l'.widget)
      m.labelList.tail (drawLabels box m.labelList).tail ↔
        ∀ l ∈ m.labelList.tail, l.Safe box := by
    rw [tail_drawLabels, List.forall₂_map_right_iff, List.forall₂_same]
    exact forall₂_congr fun l _ => drawLabel_placed_iff box l
  rw [← hlabels]
  constructor
  · intro h
    rcases h with ⟨m', hm', hdrawn⟩
    rw [drawChildren_eq hbox] at hm'
    cases hm'
    exact hdrawn.labels
  · intro h
    refine ⟨_, drawChildren_eq hbox, drawn_children_placed box m.buttonList,
      drawn_children_placed box m.editList, h, ?_⟩
    rcases m with ⟨_, buttons, edits, labels⟩
    cases hbox
    rw [drawChildren_eq rfl]
    simp [drawChild_drawChild, drawLabels_drawLabels]

/-- A box with a second label ten pixels to the left of it. -/
def leftLabel : Message where
  box := some ⟨100, 100, 500, 200⟩
  buttonList := []
  editList := []
  labelList := [⟨⟨0, 0, 0, 0⟩, ascii "deposited"⟩, ⟨⟨0, 0, -10, 20⟩, ascii "idx: 0"⟩]

/-- The label goes to the right side of the box. -/
theorem not_clamps_leftLabel : ¬ leftLabel.Clamps := by
  intro h
  rcases h _ rfl with ⟨m', hm', hdrawn⟩
  rw [Message.drawChildren_eq rfl] at hm'
  cases hm'
  have hlabel := (List.forall₂_cons.mp hdrawn.labels).1
  have hx := (hlabel ⟨by decide, by decide⟩
    ⟨by decide, by decide, by decide, by decide, by decide, by decide⟩).x_eq
  exact absurd hx (by decide)

end Neroshop.MessageBox
