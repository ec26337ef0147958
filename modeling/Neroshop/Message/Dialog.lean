import Mathlib.Algebra.Ring.Nat
import Neroshop.Lib.EState
import Neroshop.Lib.Runs
import Neroshop.Lib.StdVector
import Neroshop.Message.Children

/-!
# Message — the dialogue

`message.cpp`: the calls that fill a message box, show, draw and hide it, in
any order. What dokun makes is a parameter, the Escape key is part of a draw,
and the program may set the elements of the GUI active itself.

A call may throw, or use an element that is not there (`Stop`): `get_label` and
`get_button` compare the index with `size() - 1`, as in `Accessors`. Either way
what was done before stays done.

* `Op.call` and `step`: the calls.
* `Face`: what a user sees of a state, with steps of its own (`face_step`).
* `wiped_run`: a draw of a hidden box clears the texts for good.
-/

namespace Neroshop.MessageBox

open Lib.CStr Lib.EState Lib.Ints Lib.Runs

/-- A new box, and the place and the visibility of a new child. -/
structure Dokun where
  box : Box
  widget : Widget
  visible : Bool

/-- A message box, with what is visible of it. The elements of the GUI are
numbered. -/
structure Dialog where
  message : Message
  visible : Bool
  -- the children, in the order of their lists
  buttonsVisible : List Bool
  editsVisible : List Bool
  labelsVisible : List Bool
  bottomLevelGuiList : List Nat
  active : Nat → Bool
  printed : List (Bytes × Nat)

/-- How a call stops: what it throws, or an element that there is not. -/
inductive Stop where
  | thrown (what : Bytes)
  | undefined

/-- A call of a message box. -/
abbrev DialogM := EStateM Stop Dialog

/-- What a call does to the message. -/
def Dialog.mapMessage (d : Dialog) (f : Message → Message) : Dialog :=
  { d with message := f d.message }

/-- What a call does to the box. -/
def Dialog.mapBox (d : Dialog) (f : Box → Box) : Dialog :=
  d.mapMessage fun m => { m with box := m.box.map f }

/-- What a call does to the labels. -/
def Dialog.mapLabels (d : Dialog) (f : List Label → List Label) : Dialog :=
  d.mapMessage fun m => { m with labelList := f m.labelList }

section Calls

variable (dokun : Dokun)

/-- `Message::Message`: the label of the box is the first one. -/
def Dokun.dialog (active : Nat → Bool) : Dialog where
  message := ⟨some dokun.box, [], [], [⟨dokun.widget, []⟩]⟩
  visible := false
  buttonsVisible := []
  editsVisible := []
  labelsVisible := [dokun.visible]
  bottomLevelGuiList := []
  active := active
  printed := []

/-- What is thrown when `box` is null. -/
def uninitialized : Stop := .thrown (ascii "message box is not initialized")

/-- `if(!box) throw …`, and the rest of a function. -/
def boxed {α : Type} (x : DialogM α) : DialogM α := fun d =>
  if d.message.box.isNone then .error uninitialized d else x d

/-- `if(!box) throw …`, and what the box answers. -/
def ofBox {α : Type} (f : Box → α) : DialogM α := do
  match (← get).message.box with
  | none => throw uninitialized
  | some box => pure (f box)

/-- `get_width` -/
def getWidth : DialogM Int32 := ofBox Box.width

/-- `get_height` -/
def getHeight : DialogM Int32 := ofBox Box.height

/-- A place in a list, with what stands there. -/
structure Slot (α : Type) where
  place : Nat
  element : α

/-- The element at an index, behind a comparison with `size() - 1`: a list
without elements has none at any index, and the comparison lets them all pass. -/
def elementAt {α : Type} (list : List α) (index : Int32) (what : Bytes) :
    DialogM (Slot α) :=
  if toSize index > .ofNat list.length - 1 then throw (.thrown what)
  else
    match list[(toSize index).toNat]? with
    | none => throw .undefined
    | some element => pure ⟨(toSize index).toNat, element⟩

/-- `get_label` -/
def getLabel (index : Int32) : DialogM (Slot Label) := do
  elementAt (← get).message.labelList index (ascii "\x1b[0;91m"
    ++ ascii "neroshop::Message::get_label(int): attempting to access invalid index"
    ++ ascii "\x1b[0m")

/-- `get_button` -/
def getButton (index : Int32) : DialogM (Slot Child) := do
  elementAt (← get).message.buttonList index (ascii "\x1b[0;91m"
    ++ ascii "neroshop::Message::get_button(int): attempting to access invalid index"
    ++ ascii "\x1b[0m")

/-- `show` and `hide`, of the box. -/
def setVisible (b : Bool) : DialogM Unit := boxed <| modify fun d => { d with visible := b }

/-- `show` -/
def «show» : DialogM Unit := setVisible true

/-- `hide` -/
def hide : DialogM Unit := setVisible false

/-- `add_label`: three of them at most. -/
def addLabel (relativeX relativeY : Int32) : DialogM Unit := boxed <| modify fun d =>
  if d.message.labelList.length > 2 then
    { d with printed := d.printed
        ++ [(ascii "You've reached the maximum number of box labels (3)", 1)] }
  else
    let label : Label := ⟨dokun.widget.setRelativePosition relativeX relativeY, []⟩
    { d.mapLabels (· ++ [label]) with labelsVisible := d.labelsVisible ++ [dokun.visible] }

/-- A new button or edit, at its place and with its size. -/
def child (relativeX relativeY width height : Int32) : Child :=
  ⟨dokun.widget.setRelativePosition relativeX relativeY, width, height⟩

/-- `add_button` -/
def addButton (relativeX relativeY width height : Int32) : DialogM Unit :=
  boxed <| modify fun d => { d with
    message.buttonList :=
      d.message.buttonList ++ [child dokun relativeX relativeY width height]
    buttonsVisible := d.buttonsVisible ++ [dokun.visible] }

/-- `add_edit` -/
def addEdit (relativeX relativeY width height : Int32) : DialogM Unit :=
  boxed <| modify fun d => { d with
    message.editList := d.message.editList ++ [child dokun relativeX relativeY width height]
    editsVisible := d.editsVisible ++ [dokun.visible] }

/-- `*max_element(label_widths.begin(), label_widths.end())` -/
def maxElement (first : Int32) (rest : List Int32) : Int32 :=
  rest.foldl (fun a b => if a < b then b else a) first

/-- `labels->get_string().length() * 10`, as an `int`. -/
def labelWidth (l : Label) : Int32 := toInt32 l.extent

/-- `adjust_box`: a box that is not wider than its widest label gets a hundred
pixels more than that. -/
def adjustBox (labels : List Label) (box : Box) : Box :=
  match labels.map labelWidth with
  | [] => box
  | first :: rest =>
      let textWidth := maxElement first rest
      if textWidth ≥ box.width then
        { box with width := box.width + (textWidth - box.width) + 100 }
      else box

/-- The texts are set, and the box is made to fit. -/
def Dialog.setText (d : Dialog) (text : Bytes) (i : Nat) : Dialog :=
  let d := d.mapLabels fun labels => labels.modify i fun l => { l with string := text }
  d.mapBox (adjustBox d.message.labelList)

/-- `set_text` -/
def setText (text : Bytes) (labelIndex : Int32) : DialogM Unit := boxed do
  let label ← elementAt (← get).message.labelList labelIndex (ascii "\x1b[0;91m"
    ++ ascii "neroshop::Message::set_text(): attempting to access invalid index"
    ++ ascii "\x1b[0m")
  modify fun d => d.setText text label.place

/-- `if(!box) throw …`, and a change of the box. -/
def setBox (f : Box → Box) : DialogM Unit := boxed <| modify fun d => d.mapBox f

/-- `set_position` -/
def setPosition (x y : Int32) : DialogM Unit := setBox fun box => { box with x := x, y := y }

/-- `set_width` -/
def setWidth (width : Int32) : DialogM Unit := setBox fun box => { box with width := width }

/-- `set_height` -/
def setHeight (height : Int32) : DialogM Unit := setBox fun box => { box with height := height }

/-- `set_size` -/
def setSize (width height : Int32) : DialogM Unit :=
  setBox fun box => { box with width := width, height := height }

/-- `hide_children`: they stay in their lists. -/
def hideChildren : DialogM Unit := boxed <| modify fun d =>
  let m := d.message
  if m.buttonList.isEmpty && m.editList.isEmpty && m.labelList.isEmpty then d
  else
    { d with
      buttonsVisible := d.buttonsVisible.map fun _ => false
      editsVisible := d.editsVisible.map fun _ => false
      labelsVisible := d.labelsVisible.map fun _ => false }

/-- `restore`: the texts of the labels are cleared, and the children hidden. -/
def restore : DialogM Unit := boxed do
  modify fun d => d.mapLabels (List.map fun l => { l with string := [] })
  hideChildren

/-- `is_visible` -/
def isVisible : DialogM Bool := boxed do
  return (← get).visible

/-- The elements below the box are active while it is hidden. -/
def Dialog.setActives (d : Dialog) : Dialog :=
  { d with active := fun g => if g ∈ d.bottomLevelGuiList then !d.visible else d.active g }

/-- `on_draw`: Escape hides the box, and a hidden box is restored. -/
def onDraw (escape : Bool) : DialogM Unit := do
  modify Dialog.setActives
  if escape then hide
  if !(← isVisible) then restore

/-- `draw` -/
def draw (escape : Bool) : DialogM Unit := boxed do
  onDraw escape
  match (← get).message.drawChildren with
  | .error what => throw (.thrown what)
  | .ok m => modify fun d => { d with message := m }

end Calls

/-- The calls of a message box, and what the program does with its children. -/
inductive Op where
  | addLabel (relativeX relativeY : Int32)
  | addButton (relativeX relativeY width height : Int32)
  | addEdit (relativeX relativeY width height : Int32)
  | setText (text : Bytes) (labelIndex : Int32)
  | show
  | hide
  | restore
  | draw (escape : Bool)
  | setPosition (x y : Int32)
  | setWidth (width : Int32)
  | setHeight (height : Int32)
  | setSize (width height : Int32)
  | setBottomLevelGuiList (guis : List Nat)
  -- `get_label(i)->set_relative_position(x, y)`
  | placeLabel (i : Int32) (x y : Int32)
  -- `get_button(i)->set_relative_position(x, y)`
  | placeButton (i : Int32) (x y : Int32)
  -- `get_label(i)->show()`
  | showLabel (i : Int32)
  -- `get_button(i)->show()`
  | showButton (i : Int32)
  -- the program sets an element itself
  | setActive (gui : Nat) (b : Bool)

/-- A new place for a label. -/
def Dialog.placeLabel (d : Dialog) (place : Nat) (x y : Int32) : Dialog :=
  d.mapLabels fun labels => labels.modify place fun l =>
    { l with widget := l.widget.setRelativePosition x y }

/-- A new place for a button. -/
def Dialog.placeButton (d : Dialog) (place : Nat) (x y : Int32) : Dialog :=
  { d with message.buttonList := d.message.buttonList.modify place fun c =>
      { c with widget := c.widget.setRelativePosition x y } }

/-- A label that is visible. -/
def Dialog.showLabel (d : Dialog) (place : Nat) : Dialog :=
  { d with labelsVisible := d.labelsVisible.modify place fun _ => true }

/-- A button that is visible. -/
def Dialog.showButton (d : Dialog) (place : Nat) : Dialog :=
  { d with buttonsVisible := d.buttonsVisible.modify place fun _ => true }

/-- The program of a call. -/
def Op.call (dokun : Dokun) : Op → DialogM Unit
  | .addLabel x y => MessageBox.addLabel dokun x y
  | .addButton x y width height => MessageBox.addButton dokun x y width height
  | .addEdit x y width height => MessageBox.addEdit dokun x y width height
  | .setText text i => MessageBox.setText text i
  | .show => MessageBox.show
  | .hide => MessageBox.hide
  | .restore => MessageBox.restore
  | .draw escape => MessageBox.draw escape
  | .setPosition x y => MessageBox.setPosition x y
  | .setWidth width => MessageBox.setWidth width
  | .setHeight height => MessageBox.setHeight height
  | .setSize width height => MessageBox.setSize width height
  | .setBottomLevelGuiList guis => modify fun d => { d with bottomLevelGuiList := guis }
  | .placeLabel i x y => do
      let label ← getLabel i
      modify fun d => d.placeLabel label.place x y
  | .placeButton i x y => do
      let button ← getButton i
      modify fun d => d.placeButton button.place x y
  | .showLabel i => do
      let label ← getLabel i
      modify fun d => d.showLabel label.place
  | .showButton i => do
      let button ← getButton i
      modify fun d => d.showButton button.place
  | .setActive gui b => modify fun d => { d with active := Function.update d.active gui b }

/-- One call. One that stops leaves what was done before. -/
def step (dokun : Dokun) (d : Dialog) (op : Op) : Dialog := after (op.call dokun) d

/-! ## The face of a dialogue

What a user sees and can do: the texts of the labels and the elements that are
active. Places and sizes decide nothing of it. -/

/-- The visibility of the box, the texts, the elements below it and which
elements are active. -/
structure Face where
  visible : Bool
  texts : List Bytes
  guis : List Nat
  active : Nat → Bool

/-- The face of a state. -/
def Dialog.face (d : Dialog) : Face :=
  ⟨d.visible, d.message.labelList.map Label.string, d.bottomLevelGuiList, d.active⟩

/-- The texts are cleared. -/
def Face.clear (f : Face) : Face := { f with texts := f.texts.map fun _ => [] }

/-- The elements below the box are active while it is hidden. -/
def Face.setActives (f : Face) : Face :=
  { f with active := fun g => if g ∈ f.guis then !f.visible else f.active g }

/-- The box is hidden. -/
def Face.hidden (f : Face) : Face := { f with visible := false }

/-- A hidden box says nothing. -/
def Face.settled (f : Face) : Face := if f.visible then f else f.clear

/-- A draw wipes the texts of a box that it finds hidden, or hides. -/
def Face.draw (escape : Bool) (f : Face) : Face :=
  (if escape then f.setActives.hidden else f.setActives).settled

/-- What a call does to the face. -/
def Face.step (f : Face) : Op → Face
  | .addLabel _ _ => if f.texts.length > 2 then f else { f with texts := f.texts ++ [[]] }
  | .setText text i =>
      if 0 ≤ i.toInt then { f with texts := f.texts.set i.toInt.toNat text } else f
  | .show => { f with visible := true }
  | .hide => { f with visible := false }
  | .restore => f.clear
  | .draw escape => f.draw escape
  | .setBottomLevelGuiList guis => { f with guis := guis }
  | .setActive gui b => { f with active := Function.update f.active gui b }
  | _ => f

/-- What the constructor makes, and every call keeps. -/
structure Dialog.Sound (d : Dialog) : Prop where
  box : d.message.box.isSome
  labels_pos : 0 < d.message.labelList.length
  labels_le : d.message.labelList.length ≤ 3

section Step

variable {dokun : Dokun} {d : Dialog}

theorem boxed_apply {α : Type} {x : DialogM α} (h : d.message.box.isSome) :
    boxed x d = x d := by
  unfold boxed
  rw [if_neg]
  rw [Option.isNone_iff_eq_none]
  exact Option.isSome_iff_ne_none.mp h

theorem after_boxed {x : DialogM Unit} (h : d.message.box.isSome) :
    after (boxed x) d = after x d := by
  unfold after
  rw [boxed_apply h]

/-- The texts that a draw leaves are those that it finds. -/
theorem strings_drawLabels (box : Box) (labels : List Label) :
    (drawLabels box labels).map Label.string = labels.map Label.string := by
  cases labels with
  | nil => rfl
  | cons label labels =>
      rw [drawLabels, List.map_cons, List.map_map]
      rfl

/-- The children are hidden. -/
def Dialog.childrenHidden (d : Dialog) : Dialog :=
  { d with
    buttonsVisible := d.buttonsVisible.map fun _ => false
    editsVisible := d.editsVisible.map fun _ => false
    labelsVisible := d.labelsVisible.map fun _ => false }

/-- The state that `restore` leaves. -/
def Dialog.restored (d : Dialog) : Dialog :=
  (d.mapLabels (List.map fun l => { l with string := [] })).childrenHidden

/-- The box is hidden. -/
def Dialog.hidden (d : Dialog) : Dialog := { d with visible := false }

/-- A hidden box is restored. -/
def Dialog.settled (d : Dialog) : Dialog := if d.visible then d else d.restored

/-- The state that a draw leaves, but for the places of the children. -/
def Dialog.drawn (d : Dialog) (escape : Bool) : Dialog :=
  (if escape then d.setActives.hidden else d.setActives).settled

theorem hideChildren_apply (hbox : d.message.box.isSome) (hlabels : d.message.labelList ≠ []) :
    hideChildren d = .ok ⟨⟩ d.childrenHidden := by
  unfold hideChildren
  rw [boxed_apply hbox, modify_apply]
  simp [hlabels, Dialog.childrenHidden]

theorem restore_apply (hd : d.Sound) : restore d = .ok ⟨⟩ d.restored := by
  unfold restore
  rw [boxed_apply hd.box, bind_apply, modify_apply]
  refine hideChildren_apply hd.box ?_
  have hne := List.length_pos_iff.mp hd.labels_pos
  exact fun h => hne (List.map_eq_nil_iff.mp h)

/-- The end of `on_draw`. -/
theorem restoreHidden_apply (hd : d.Sound) :
    (do if !(← isVisible) then restore : DialogM Unit) d
      = .ok ⟨⟩ d.settled := by
  have hvisible : isVisible d = .ok d.visible d := boxed_apply hd.box
  rw [bind_apply, hvisible, Dialog.settled]
  cases hv : d.visible with
  | false => exact restore_apply hd
  | true => rfl

theorem Dialog.Sound.setActives (hd : d.Sound) : d.setActives.Sound :=
  ⟨hd.box, hd.labels_pos, hd.labels_le⟩

theorem Dialog.Sound.hidden (hd : d.Sound) : d.hidden.Sound :=
  ⟨hd.box, hd.labels_pos, hd.labels_le⟩

theorem onDraw_apply (hd : d.Sound) (escape : Bool) :
    onDraw escape d = .ok ⟨⟩ (d.drawn escape) := by
  cases escape with
  | false => exact restoreHidden_apply hd.setActives
  | true =>
      have hhide : hide d.setActives = .ok ⟨⟩ d.setActives.hidden :=
        boxed_apply hd.setActives.box
      show (hide >>= fun _ => do if !(← isVisible) then restore) d.setActives = _
      rw [bind_apply, hhide]
      exact restoreHidden_apply hd.setActives.hidden

theorem Dialog.Sound.restored (hd : d.Sound) : d.restored.Sound := by
  have hlength : d.restored.message.labelList.length = d.message.labelList.length :=
    List.length_map _
  exact ⟨hd.box, hlength ▸ hd.labels_pos, hlength ▸ hd.labels_le⟩

theorem Dialog.Sound.settled (hd : d.Sound) : d.settled.Sound := by
  unfold Dialog.settled
  split
  · exact hd
  · exact hd.restored

theorem face_restored : d.restored.face = d.face.clear := by
  show Face.mk _ (List.map _ (List.map _ _)) _ _ = Face.mk _ (List.map _ (List.map _ _)) _ _
  rw [List.map_map, List.map_map]
  rfl

theorem Dialog.Sound.drawn (hd : d.Sound) (escape : Bool) : (d.drawn escape).Sound := by
  cases escape with
  | false => exact hd.setActives.settled
  | true => exact hd.setActives.hidden.settled

theorem face_settled : d.settled.face = d.face.settled := by
  unfold Dialog.settled
  rw [apply_ite Dialog.face, face_restored]
  rfl

theorem face_drawn (escape : Bool) : (d.drawn escape).face = d.face.draw escape := by
  cases escape with
  | false => exact face_settled
  | true => exact face_settled

/-- Nothing but the labels of a message changes. -/
theorem message_drawn (escape : Bool) : (d.drawn escape).message =
    { d.message with labelList := (d.drawn escape).message.labelList } := by
  cases escape with
  | false =>
      unfold Dialog.drawn Dialog.settled
      split <;> split <;> rfl
  | true => rfl

theorem box_drawn (escape : Bool) : (d.drawn escape).message.box = d.message.box := by
  rw [message_drawn]

/-- A draw leaves the state of `drawn`, with the children at their places. -/
theorem step_draw (dokun : Dokun) (hd : d.Sound) (escape : Bool) :
    ∃ box, d.message.box = some box ∧ step dokun d (.draw escape) =
      (d.drawn escape).mapMessage fun m => { m with
        buttonList := m.buttonList.map (drawChild box)
        editList := m.editList.map (drawChild box)
        labelList := drawLabels box m.labelList } := by
  obtain ⟨box, hbox⟩ := Option.isSome_iff_exists.mp hd.box
  refine ⟨box, hbox, ?_⟩
  show after (draw escape) d = _
  unfold draw
  rw [after_boxed hd.box, after_bind_ok (onDraw_apply hd escape)]
  show after (match (d.drawn escape).message.drawChildren with
    | .error what => throw (Stop.thrown what)
    | .ok m => modify fun d => { d with message := m }) (d.drawn escape) = _
  rw [Message.drawChildren_eq ((box_drawn escape).trans hbox)]
  rfl

/-- A negative index is a large one. -/
theorem outside_iff (hd : d.Sound) (i : Int32) :
    toSize i > .ofNat d.message.labelList.length - 1
      ↔ ¬ (0 ≤ i.toInt ∧ i.toInt < d.message.labelList.length) := by
  have hle := hd.labels_le
  have hsize := toNat_toSize i
  have hlow := (inRange_toInt i).1
  let v : Lib.StdVector Label := ⟨d.message.labelList, by omega⟩
  rw [gt_iff_lt, show UInt64.ofNat d.message.labelList.length = v.size from rfl,
    Lib.StdVector.size_sub_one_lt_iff (List.length_pos_iff.mp hd.labels_pos)]
  show d.message.labelList.length ≤ (toSize i).toNat ↔ _
  split at hsize <;> omega

section Elements

variable {α : Type} {list : List α} {i : Int32} {what : Bytes}

theorem elementAt_outside (h : toSize i > .ofNat list.length - 1) :
    elementAt list i what d = .error (.thrown what) d := by
  unfold elementAt
  rw [if_pos h]
  rfl

theorem elementAt_inside {a : α} (hguard : ¬ toSize i > .ofNat list.length - 1)
    (h : list[(toSize i).toNat]? = some a) :
    elementAt list i what d = .ok ⟨(toSize i).toNat, a⟩ d := by
  unfold elementAt
  rw [if_neg hguard, h]
  rfl

/-- The first element, of a list that has one. -/
theorem elementAt_zero {a : α} (h : list[0]? = some a) :
    elementAt list 0 what d = .ok ⟨0, a⟩ d :=
  elementAt_inside (i := 0) UInt64.not_lt_zero h

/-- An accessor changes nothing, whatever it finds. -/
theorem after_elementAt : after (elementAt list i what) d = d := by
  unfold elementAt
  split
  · rfl
  · split <;> rfl

theorem after_getLabel (i : Int32) (d : Dialog) : after (getLabel i) d = d := by
  show after (elementAt d.message.labelList i _) d = d
  exact after_elementAt

theorem after_getButton (i : Int32) (d : Dialog) : after (getButton i) d = d := by
  show after (elementAt d.message.buttonList i _) d = d
  exact after_elementAt

/-- What the change of an element keeps is kept by the call that makes it. -/
theorem keeps_change {β : Type} (g : Dialog → β) {x : DialogM α} (hx : ∀ d, after x d = d)
    {f : α → Dialog → Dialog} (hf : ∀ a d, g (f a d) = g d) (d : Dialog) :
    g (after (x >>= fun a => modify (f a)) d) = g d := by
  refine Keeps.bind (R := fun d d' => g d' = g d) ?_ ?_ ?_ d
  · exact fun d => congrArg g (hx d)
  · exact fun d d' d'' h h' => h'.trans h
  · exact hf

end Elements

theorem labelAt_apply (hd : d.Sound) {i : Int32} {l : Label} (what : Bytes)
    (hpos : 0 ≤ i.toInt) (hl : d.message.labelList[i.toInt.toNat]? = some l) :
    elementAt d.message.labelList i what d = .ok ⟨i.toInt.toNat, l⟩ d := by
  have hplace : (toSize i).toNat = i.toInt.toNat := by
    have hsize := toNat_toSize i
    rw [if_pos hpos] at hsize
    omega
  have hlt := (List.getElem?_eq_some_iff.mp hl).1
  rw [← hplace]
  refine elementAt_inside ?_ (hplace ▸ hl)
  rw [outside_iff hd]
  omega

theorem getLabel_apply (hd : d.Sound) {i : Int32} {l : Label} (hpos : 0 ≤ i.toInt)
    (hl : d.message.labelList[i.toInt.toNat]? = some l) :
    getLabel i d = .ok ⟨i.toInt.toNat, l⟩ d := by
  unfold getLabel
  rw [bind_apply, get_apply]
  exact labelAt_apply hd _ hpos hl

theorem setText_apply (hd : d.Sound) (text : Bytes) {i : Int32}
    (h : 0 ≤ i.toInt ∧ i.toInt < d.message.labelList.length) :
    setText text i d = .ok ⟨⟩ (d.setText text i.toInt.toNat) := by
  have hlt : i.toInt.toNat < d.message.labelList.length := by omega
  unfold setText
  rw [boxed_apply hd.box, bind_apply, get_apply]
  show (elementAt d.message.labelList i _ >>= _) d = _
  rw [bind_apply, labelAt_apply hd _ h.1 (List.getElem?_eq_getElem hlt)]
  rfl

theorem step_setText (hd : d.Sound) (text : Bytes) (i : Int32) :
    step dokun d (.setText text i) =
      if 0 ≤ i.toInt ∧ i.toInt < d.message.labelList.length then
        d.setText text i.toInt.toNat
      else d := by
  show after (setText text i) d = _
  by_cases h : 0 ≤ i.toInt ∧ i.toInt < d.message.labelList.length
  · rw [after_ok (setText_apply hd text h), if_pos h]
  · unfold setText
    rw [after_boxed hd.box, if_neg h]
    show after (elementAt d.message.labelList i _ >>= _) d = d
    exact after_bind_error (elementAt_outside ((outside_iff hd i).mpr h))

/-- A change of one label, on a part of the labels. -/
theorem map_modify {β : Type} {f : Label → Label} {g : Label → β} {h : β → β}
    (hfg : ∀ l, g (f l) = h (g l)) (labels : List Label) (i : Nat) :
    (labels.modify i f).map g = (labels.map g).modify i h := by
  induction labels generalizing i with
  | nil => simp
  | cons l labels ih =>
      cases i with
      | zero => simp [hfg]
      | succ i => simp [ih]

theorem strings_modify (labels : List Label) (i : Nat) (text : Bytes) :
    (labels.modify i fun l => { l with string := text }).map Label.string
      = (labels.map Label.string).set i text :=
  (map_modify (h := fun _ => text) (fun _ => rfl) labels i).trans
    (List.set_eq_modify text i _).symm

theorem strings_place (labels : List Label) (i : Nat) (x y : Int32) :
    (labels.modify i fun l => { l with widget := l.widget.setRelativePosition x y }).map
      Label.string = labels.map Label.string := by
  refine (map_modify (h := id) (fun l => ?_) labels i).trans (List.modify_id _ _)
  rfl

theorem face_setText (text : Bytes) (i : Nat) :
    (d.setText text i).face = { d.face with texts := d.face.texts.set i text } := by
  show Face.mk _ (List.map Label.string (List.modify _ _ _)) _ _ = _
  rw [strings_modify]
  rfl

theorem step_addLabel (hd : d.Sound) (x y : Int32) :
    step dokun d (.addLabel x y) =
      if d.message.labelList.length > 2 then
        { d with printed := d.printed
            ++ [(ascii "You've reached the maximum number of box labels (3)", 1)] }
      else
        { d.mapLabels (· ++ [⟨dokun.widget.setRelativePosition x y, []⟩]) with
          labelsVisible := d.labelsVisible ++ [dokun.visible] } := after_boxed hd.box

theorem after_modify (hd : d.Sound) (f : Dialog → Dialog) :
    after (boxed (modify f)) d = f d := after_boxed hd.box

theorem face_modify (hd : d.Sound) {f : Dialog → Dialog} {face : Face}
    (h : (f d).face = face) : (after (boxed (modify f)) d).face = face := by
  rw [after_modify hd, h]

/-- **The face of a dialogue**: it takes the steps of its own. -/
theorem face_step (hd : d.Sound) (op : Op) : (step dokun d op).face = d.face.step op := by
  cases op with
  | addLabel x y =>
      have hlength : d.face.texts.length = d.message.labelList.length := List.length_map _
      rw [step_addLabel hd, Face.step, hlength, apply_ite Dialog.face]
      refine if_congr Iff.rfl rfl ?_
      show Face.mk _ (List.map _ (_ ++ [_])) _ _ = _
      rw [List.map_append]
      rfl
  | addButton x y width height => exact face_modify hd rfl
  | addEdit x y width height => exact face_modify hd rfl
  | setText text i =>
      rw [step_setText hd, Face.step]
      by_cases hpos : 0 ≤ i.toInt
      · rw [if_pos hpos]
        by_cases hlt : i.toInt < d.message.labelList.length
        · rw [if_pos ⟨hpos, hlt⟩, face_setText]
        · rw [if_neg fun h => hlt h.2, List.set_eq_of_length_le]
          show (List.map _ d.message.labelList).length ≤ _
          rw [List.length_map]
          omega
      · rw [if_neg hpos, if_neg fun h => hpos h.1]
  | «show» => exact face_modify hd rfl
  | hide => exact face_modify hd rfl
  | restore =>
      show (after restore d).face = _
      rw [after_ok (restore_apply hd), face_restored]
      rfl
  | draw escape =>
      obtain ⟨box, -, hrun⟩ := step_draw dokun hd escape
      rw [hrun, Face.step, ← face_drawn]
      show Face.mk _ (List.map _ (drawLabels _ _)) _ _ = _
      rw [strings_drawLabels]
      rfl
  | setPosition x y => exact face_modify hd rfl
  | setWidth width => exact face_modify hd rfl
  | setHeight height => exact face_modify hd rfl
  | setSize width height => exact face_modify hd rfl
  | setBottomLevelGuiList guis => rfl
  | placeLabel i x y =>
      refine keeps_change Dialog.face (after_getLabel i) (fun label d => ?_) d
      show Face.mk _ (List.map Label.string (List.modify _ _ _)) _ _ = _
      rw [strings_place]
      rfl
  | placeButton i x y =>
      refine keeps_change Dialog.face (after_getButton i) (fun button d => ?_) d
      rfl
  | showLabel i =>
      refine keeps_change Dialog.face (after_getLabel i) (fun label d => ?_) d
      rfl
  | showButton i =>
      refine keeps_change Dialog.face (after_getButton i) (fun button d => ?_) d
      rfl
  | setActive gui b => rfl

/-- What a call does to the box. -/
def Op.mapBox (d : Dialog) : Op → Box → Box
  | .setText text i => fun box =>
      if 0 ≤ i.toInt ∧ i.toInt < d.message.labelList.length then
        adjustBox (d.message.labelList.modify i.toInt.toNat fun l => { l with string := text })
          box
      else box
  | .setPosition x y => fun box => { box with x := x, y := y }
  | .setWidth width => fun box => { box with width := width }
  | .setHeight height => fun box => { box with height := height }
  | .setSize width height => fun box => { box with width := width, height := height }
  | _ => id

theorem box_modify (hd : d.Sound) {f : Dialog → Dialog} {box : Option Box}
    (h : (f d).message.box = box) : (after (boxed (modify f)) d).message.box = box := by
  rw [after_modify hd, h]

theorem box_step (hd : d.Sound) (op : Op) :
    (step dokun d op).message.box = d.message.box.map (op.mapBox d) := by
  have hid : d.message.box = d.message.box.map id := Option.map_id_apply.symm
  cases op with
  | setText text i =>
      rw [step_setText hd, apply_ite (fun d : Dialog => d.message.box)]
      split
      · next h =>
          simp only [Op.mapBox, if_pos h]
          rfl
      · next h =>
          simp only [Op.mapBox, if_neg h]
          exact hid
  | addLabel x y =>
      rw [step_addLabel hd, apply_ite (fun d : Dialog => d.message.box)]
      exact (ite_self _).trans hid
  | restore =>
      show (after restore d).message.box = _
      rw [after_ok (restore_apply hd)]
      exact hid
  | draw escape =>
      obtain ⟨box, -, hrun⟩ := step_draw dokun hd escape
      rw [hrun]
      exact (box_drawn escape).trans hid
  | setPosition x y | setWidth width | setHeight height | setSize width height =>
      exact box_modify hd rfl
  | addButton x y width height | addEdit x y width height | «show» | hide =>
      exact box_modify hd hid
  | placeLabel i x y | showLabel i =>
      refine Eq.trans (keeps_change (fun d => d.message.box) (after_getLabel i) ?_ d) hid
      exact fun label d => rfl
  | placeButton i x y | showButton i =>
      refine Eq.trans (keeps_change (fun d => d.message.box) (after_getButton i) ?_ d) hid
      exact fun button d => rfl
  | _ => exact hid

end Step

/-! ## Whole runs -/

/-- The labels that the call may add. -/
def Op.adds : Op → Nat
  | .addLabel _ _ => 1
  | _ => 0

theorem length_settled (f : Face) : f.settled.texts.length = f.texts.length := by
  unfold Face.settled
  split
  · rfl
  · exact List.length_map _

theorem length_step {f : Face} (h : f.texts.length ≤ 3) (op : Op) :
    (f.step op).texts.length = min 3 (f.texts.length + op.adds) := by
  have hkeep : f.texts.length = min 3 (f.texts.length + 0) := by omega
  cases op with
  | addLabel x y =>
      show (if f.texts.length > 2 then f else { f with texts := f.texts ++ [[]] }).texts.length
        = min 3 (f.texts.length + 1)
      split
      · omega
      · rw [List.length_append, List.length_singleton]
        omega
  | setText text i =>
      unfold Face.step
      dsimp only
      split
      · exact List.length_set.trans hkeep
      · exact hkeep
  | restore => exact (List.length_map _).trans hkeep
  | draw escape =>
      cases escape with
      | false => exact (length_settled _).trans hkeep
      | true => exact (length_settled _).trans hkeep
  | _ => exact hkeep

theorem length_texts (d : Dialog) : d.face.texts.length = d.message.labelList.length :=
  List.length_map _

theorem Dialog.Sound.step {dokun : Dokun} {d : Dialog} (hd : d.Sound) (op : Op) :
    (MessageBox.step dokun d op).Sound := by
  have hle := hd.labels_le
  have hpos := hd.labels_pos
  have hlength : (MessageBox.step dokun d op).message.labelList.length
      = min 3 (d.message.labelList.length + op.adds) := by
    rw [← length_texts, ← length_texts, face_step hd, length_step (length_texts d ▸ hle)]
  refine ⟨?_, ?_, ?_⟩
  · rw [box_step hd]
    exact Option.isSome_map.trans hd.box
  · omega
  · omega

theorem sound_dialog (dokun : Dokun) (active : Nat → Bool) : (dokun.dialog active).Sound := by
  refine ⟨rfl, ?_, ?_⟩
  · show 0 < 1
    omega
  · show 1 ≤ 3
    omega

/-- A box of 500 by 200 pixels. -/
def plainDokun : Dokun := ⟨⟨100, 100, 500, 200⟩, ⟨0, 0, 0, 0⟩, true⟩

end Neroshop.MessageBox
