import Neroshop.Message.Dialog

/-!
# Message — room for the texts

`adjust_box` makes the box wider than its widest label, at ten pixels for a
character. What it does over the runs of a dialogue.

* `Roomy`: there is room for the texts.
* `Leaves`: the calls that keep it so, `int` arithmetic included.
* `texts_fit_iff`: over whole runs, the texts fit exactly when each call leaves
  room.
-/

namespace Neroshop.MessageBox

open Lib.CStr Lib.Ints Lib.Runs

/-- Each text is narrower than the box. -/
def Roomy (width : Int32) (texts : List Bytes) : Prop :=
  ∀ text ∈ texts, 10 * (text.length : Int) < width.toInt

/-- The texts of a state are narrower than its box. -/
def Dialog.Roomy (d : Dialog) : Prop :=
  ∀ box, d.message.box = some box → MessageBox.Roomy box.width d.face.texts

/-- The call leaves room: a new text does unless it is too long to widen the
box for it. -/
def Leaves (d : Dialog) : Op → Prop
  | .setText text i => 0 ≤ i.toInt → i.toInt < d.message.labelList.length →
      ∀ box, d.message.box = some box →
        10 * (text.length : Int) < box.width.toInt ∨ 10 * text.length + 100 ≤ 2147483647
  | .setWidth width => MessageBox.Roomy width d.face.texts
  | .setSize width _ => MessageBox.Roomy width d.face.texts
  | _ => True

section Room

variable {first : Int32} {rest : List Int32}

theorem maxElement_cons (a b : Int32) (rest : List Int32) :
    maxElement a (b :: rest) = maxElement (if a < b then b else a) rest := rfl

theorem maxElement_mem (first : Int32) (rest : List Int32) :
    maxElement first rest ∈ first :: rest := by
  induction rest generalizing first with
  | nil => exact List.mem_singleton_self first
  | cons b rest ih =>
      rw [maxElement_cons]
      by_cases hlt : first < b
      · rw [if_pos hlt]
        exact List.mem_cons_of_mem first (ih b)
      · rw [if_neg hlt]
        rcases List.mem_cons.mp (ih first) with heq | hmem
        · rw [heq]
          exact List.mem_cons_self
        · exact List.mem_cons_of_mem first (List.mem_cons_of_mem b hmem)

theorem le_maxElement (first : Int32) (rest : List Int32) :
    ∀ w ∈ first :: rest, w.toInt ≤ (maxElement first rest).toInt := by
  induction rest generalizing first with
  | nil =>
      intro w hw
      rw [List.mem_singleton.mp hw]
      exact Int.le_refl _
  | cons b rest ih =>
      intro w hw
      rw [maxElement_cons]
      by_cases hlt : first < b
      · rw [if_pos hlt]
        rcases List.mem_cons.mp hw with rfl | hrest
        · exact Int.le_trans (Int.le_of_lt (Int32.lt_iff_toInt_lt.mp hlt))
            (ih b b List.mem_cons_self)
        · exact ih b w hrest
      · rw [if_neg hlt]
        rcases List.mem_cons.mp hw with rfl | hrest
        · exact ih w w List.mem_cons_self
        rcases List.mem_cons.mp hrest with rfl | hrest
        · exact Int.le_trans (Int.not_lt.mp fun h => hlt (Int32.lt_iff_toInt_lt.mpr h))
            (ih first first List.mem_cons_self)
        · exact ih first w (List.mem_cons_of_mem first hrest)

theorem toInt_labelWidth {l : Label} (h : 10 * l.string.length ≤ 2147483647) :
    (labelWidth l).toInt = 10 * l.string.length := by
  have hextent := toNat_extent h
  rw [labelWidth, toInt32_of_inRange, hextent]
  · exact Int.natCast_mul 10 _
  · rw [hextent]
    unfold InRange
    omega

/-- The box that fits already stays, and another one gets wider than the
widest text. -/
theorem adjustBox_eq {labels : List Label} (hne : labels ≠ []) (box : Box) :
    ∃ widest ∈ labels, (∀ l ∈ labels, (labelWidth l).toInt ≤ (labelWidth widest).toInt)
      ∧ adjustBox labels box =
        if labelWidth widest ≥ box.width then { box with width := labelWidth widest + 100 }
        else box := by
  obtain ⟨l, rest, rfl⟩ := List.exists_cons_of_ne_nil hne
  obtain ⟨widest, hmem, hwidest⟩ := List.mem_map.mp
    (List.map_cons (f := labelWidth) ▸ maxElement_mem (labelWidth l) (rest.map labelWidth))
  refine ⟨widest, hmem, ?_, ?_⟩
  · intro l' hl'
    rw [hwidest]
    exact le_maxElement _ _ _ (List.map_cons (f := labelWidth) ▸ List.mem_map_of_mem hl')
  · rw [hwidest]
    show (if maxElement _ _ ≥ box.width then _ else box) = _
    rw [Int32.add_comm box.width, Int32.sub_add_cancel]

/-- The width of the box for a new text. -/
def widened (text : Bytes) (width : Int) : Int :=
  if 10 * (text.length : Int) < width then width else 10 * text.length + 100

section Adjust

variable {labels : List Label} {text : Bytes} {box : Box}

/-- A new text among texts that are narrower than the box. -/
theorem adjustBox_widened (htext : ∃ l ∈ labels, l.string = text)
    (hrest : ∀ l ∈ labels, l.string ≠ text → 10 * (l.string.length : Int) < box.width.toInt)
    (hshort : 10 * (text.length : Int) < box.width.toInt
      ∨ 10 * text.length + 100 ≤ 2147483647) :
    ∃ width : Int32, adjustBox labels box = { box with width := width }
      ∧ width.toInt = widened text box.width.toInt := by
  obtain ⟨label, hlabel, rfl⟩ := htext
  obtain ⟨widest, hmem, hmax, hadjust⟩ := adjustBox_eq (List.ne_nil_of_mem hlabel) box
  have hwidth := inRange_toInt box.width
  unfold InRange at hwidth
  rw [hadjust]
  by_cases hnarrow : 10 * (label.string.length : Int) < box.width.toInt
  · -- nothing reaches the sides of the box
    have hwidest : 10 * (widest.string.length : Int) < box.width.toInt := by
      by_cases heq : widest.string = label.string
      · exact heq ▸ hnarrow
      · exact hrest widest hmem heq
    have hstays : ¬ labelWidth widest ≥ box.width := by
      rw [ge_iff_le, Int32.le_iff_toInt_le, toInt_labelWidth (by omega)]
      omega
    rw [if_neg hstays]
    exact ⟨box.width, rfl, (if_pos hnarrow).symm⟩
  · -- the new text is the widest one
    have hle : widest.string.length ≤ label.string.length := by
      by_cases heq : widest.string = label.string
      · exact Nat.le_of_eq (congrArg List.length heq)
      · have := hrest widest hmem heq
        omega
    have hlong := hshort.resolve_left hnarrow
    have hlabelWidth := toInt_labelWidth (l := label) (by omega)
    have hwidest := toInt_labelWidth (l := widest) (by omega)
    have hge := hmax label hlabel
    have hgrows : labelWidth widest ≥ box.width := by
      rw [ge_iff_le, Int32.le_iff_toInt_le]
      omega
    rw [if_pos hgrows]
    refine ⟨_, rfl, ?_⟩
    rw [widened, if_neg hnarrow, toInt_add]
    · show _ + 100 = _
      omega
    · show InRange (_ + 100)
      unfold InRange
      omega

/-- A new text leaves room when it is narrower than the box, or the box can be
made wider than it. -/
theorem roomy_adjustBox_iff (htext : ∃ l ∈ labels, l.string = text)
    (hrest : ∀ l ∈ labels, l.string ≠ text → 10 * (l.string.length : Int) < box.width.toInt) :
    Roomy (adjustBox labels box).width (labels.map Label.string)
      ↔ 10 * (text.length : Int) < box.width.toInt
        ∨ 10 * text.length + 100 ≤ 2147483647 := by
  have hroomy : ∀ width, Roomy width (labels.map Label.string)
      ↔ ∀ l ∈ labels, 10 * (l.string.length : Int) < width.toInt :=
    fun width => List.forall_mem_map
  rw [hroomy]
  constructor
  · -- there is no `int` for the width that a longer text needs
    intro hall
    obtain ⟨label, hlabel, rfl⟩ := htext
    obtain ⟨widest, -, hmax, hadjust⟩ := adjustBox_eq (List.ne_nil_of_mem hlabel) box
    have hfits := hall label hlabel
    rw [hadjust] at hfits
    by_contra hlong
    rw [not_or] at hlong
    split at hfits
    case isFalse => exact hlong.1 hfits
    have hnew := inRange_toInt (labelWidth widest + 100)
    unfold InRange at hnew
    change _ < (labelWidth widest + 100).toInt at hfits
    have hlabelWidth := toInt_labelWidth (l := label) (by omega)
    have hge := hmax label hlabel
    have hback : (labelWidth widest + 100 - 100).toInt
        = (labelWidth widest + 100).toInt - 100 := by
      apply toInt_sub
      show InRange (_ - 100)
      unfold InRange
      omega
    rw [Int32.add_sub_cancel] at hback
    omega
  · intro hshort l hl
    obtain ⟨width, hadjust, hwidth⟩ := adjustBox_widened htext hrest hshort
    rw [hadjust]
    show _ < width.toInt
    rw [hwidth, widened]
    by_cases heq : l.string = text
    · rw [heq]
      split <;> omega
    · have := hrest l hl heq
      split <;> omega

end Adjust

/-- A box with room for texts has room for some of them, and for none. -/
theorem Roomy.mono {width : Int32} {texts texts' : List Bytes} (h : Roomy width texts)
    (hne : texts ≠ []) (hsub : ∀ text ∈ texts', text ∈ texts ∨ text = []) :
    Roomy width texts' := by
  obtain ⟨text₀, htext₀⟩ := List.exists_mem_of_ne_nil texts hne
  intro text htext
  rcases hsub text htext with hmem | rfl
  · exact h text hmem
  · have := h text₀ htext₀
    show 10 * (0 : Int) < _
    omega

theorem mem_settled {f : Face} {text : Bytes} (h : text ∈ f.settled.texts) :
    text ∈ f.texts ∨ text = [] := by
  unfold Face.settled at h
  split at h
  · exact .inl h
  · obtain ⟨_, _, rfl⟩ := List.mem_map.mp h
    exact .inr rfl

section SetText

variable {d : Dialog} {box : Box} {i : Nat}

/-- Where a new text stands among texts that are narrower than the box. -/
theorem mem_modify (hroomy : Roomy box.width d.face.texts) (text : Bytes)
    (hi : i < d.message.labelList.length) :
    let labels := d.message.labelList.modify i fun l => { l with string := text }
    (∃ l ∈ labels, l.string = text) ∧ ∀ l ∈ labels, l.string ≠ text →
      10 * (l.string.length : Int) < box.width.toInt := by
  intro labels
  have hstrings : labels.map Label.string = d.face.texts.set i text :=
    strings_modify d.message.labelList i text
  constructor
  · rw [← List.mem_map, hstrings]
    exact List.mem_set (by rwa [length_texts]) text
  · intro l hl hne
    have hmem := List.mem_map_of_mem (f := Label.string) hl
    rw [hstrings] at hmem
    exact hroomy _ ((List.mem_or_eq_of_mem_set hmem).resolve_right hne)

theorem roomy_setText_iff (hroomy : Roomy box.width d.face.texts) (text : Bytes)
    (hi : i < d.message.labelList.length) :
    Roomy (adjustBox (d.message.labelList.modify i fun l => { l with string := text }) box).width
        (d.face.texts.set i text)
      ↔ 10 * (text.length : Int) < box.width.toInt
        ∨ 10 * text.length + 100 ≤ 2147483647 := by
  obtain ⟨htext, hrest⟩ := mem_modify hroomy text hi
  show Roomy _ ((d.message.labelList.map Label.string).set i text) ↔ _
  rw [← strings_modify]
  exact roomy_adjustBox_iff htext hrest

theorem box_setText (hroomy : Roomy box.width d.face.texts) (hbox : d.message.box = some box)
    (text : Bytes) (hi : i < d.message.labelList.length)
    (hshort : 10 * text.length + 100 ≤ 2147483647) :
    ∃ width : Int32, (d.setText text i).message.box = some { box with width := width }
      ∧ width.toInt = widened text box.width.toInt := by
  obtain ⟨htext, hrest⟩ := mem_modify hroomy text hi
  obtain ⟨width, hadjust, hwidth⟩ := adjustBox_widened htext hrest (.inr hshort)
  refine ⟨width, ?_, hwidth⟩
  show d.message.box.map (adjustBox _) = _
  rw [hbox]
  exact congrArg some hadjust

end SetText

theorem roomy_step_iff {dokun : Dokun} {d : Dialog} (hd : d.Sound) (hroomy : d.Roomy)
    (op : Op) : (step dokun d op).Roomy ↔ Leaves d op := by
  obtain ⟨box, hbox⟩ := Option.isSome_iff_exists.mp hd.box
  have hfits := hroomy box hbox
  have hne : d.face.texts ≠ [] := by
    rw [← List.length_pos_iff, length_texts]
    exact hd.labels_pos
  have hstep : (step dokun d op).Roomy
      ↔ Roomy (op.mapBox d box).width (d.face.step op).texts := by
    unfold Dialog.Roomy
    rw [box_step hd, hbox, face_step hd]
    exact ⟨fun h => h _ rfl, fun h _ hb => by cases hb; exact h⟩
  rw [hstep]
  have hsame : ∀ {texts : List Bytes}, (∀ text ∈ texts, text ∈ d.face.texts ∨ text = []) →
      (Roomy box.width texts ↔ True) := fun h => iff_true_intro (hfits.mono hne h)
  cases op with
  | setText text i =>
      show Roomy (Box.width (if 0 ≤ i.toInt ∧ i.toInt < d.message.labelList.length then _
          else box)) (Face.texts (if 0 ≤ i.toInt then _ else d.face))
        ↔ (0 ≤ i.toInt → i.toInt < d.message.labelList.length →
          ∀ box', d.message.box = some box' → _)
      by_cases hi : 0 ≤ i.toInt ∧ i.toInt < d.message.labelList.length
      · rw [if_pos hi, if_pos hi.1, roomy_setText_iff hfits text (by omega), hbox]
        exact ⟨fun h _ _ _ hb => by cases hb; exact h, fun h => h hi.1 hi.2 box rfl⟩
      · rw [if_neg hi]
        refine iff_of_true ?_ fun hpos hlt => absurd ⟨hpos, hlt⟩ hi
        by_cases hpos : 0 ≤ i.toInt
        · rw [if_pos hpos]
          show Roomy box.width (d.face.texts.set i.toInt.toNat text)
          rw [List.set_eq_of_length_le]
          · exact hfits
          · rw [length_texts]
            omega
        · rw [if_neg hpos]
          exact hfits
  | setWidth width => exact Iff.rfl
  | setSize width height => exact Iff.rfl
  | addLabel x y =>
      refine hsame fun text htext => ?_
      unfold Face.step at htext
      dsimp only at htext
      split at htext
      · exact .inl htext
      · rcases List.mem_append.mp htext with hmem | hnew
        · exact .inl hmem
        · exact .inr (List.mem_singleton.mp hnew)
  | restore =>
      refine hsame fun text htext => ?_
      obtain ⟨_, _, rfl⟩ := List.mem_map.mp htext
      exact .inr rfl
  | draw escape =>
      cases escape with
      | false => exact hsame fun text => mem_settled
      | true => exact hsame fun text => mem_settled
  | _ => exact hsame fun text => .inl

/-- The invariant of a run whose calls leave room. -/
structure Dialog.Fitting (d : Dialog) : Prop where
  sound : d.Sound
  roomy : d.Roomy

theorem Dialog.Fitting.step {dokun : Dokun} {d : Dialog} (hd : d.Fitting) {op : Op}
    (hop : Leaves d op) : (MessageBox.step dokun d op).Fitting :=
  ⟨hd.sound.step op, (roomy_step_iff hd.sound hd.roomy op).mpr hop⟩

theorem roomy_dialog_iff {dokun : Dokun} {active : Nat → Bool} :
    (dokun.dialog active).Roomy ↔ 0 < dokun.box.width.toInt := by
  constructor
  · intro h
    exact h dokun.box rfl [] (List.mem_singleton_self _)
  · rintro h box ⟨⟩ text htext
    rw [List.mem_singleton.mp htext]
    exact h

theorem fitting_dialog {dokun : Dokun} {active : Nat → Bool}
    (hwidth : 0 < dokun.box.width.toInt) : (dokun.dialog active).Fitting :=
  ⟨sound_dialog dokun active, roomy_dialog_iff.mpr hwidth⟩

/-- **The texts fit**: in every state of a run the texts are narrower than the
box exactly when the new box has a width and each call leaves room. A text for
an index outside the labels changes nothing. -/
theorem texts_fit_iff (dokun : Dokun) (active : Nat → Bool) (ops : List Op) :
    ((dokun.dialog active).Roomy
        ∧ Along (step dokun) (fun d op => (step dokun d op).Roomy) (dokun.dialog active) ops
      ↔ 0 < dokun.box.width.toInt ∧ Along (step dokun) Leaves (dokun.dialog active) ops)
    ∧ let d := run (step dokun) (dokun.dialog active) ops
      ∀ (text : Bytes) (i : Int32),
        ¬ (0 ≤ i.toInt ∧ i.toInt < d.message.labelList.length) →
          step dokun d (.setText text i) = d := by
  constructor
  · rw [roomy_dialog_iff]
    refine and_congr_right fun hwidth => ?_
    have hexact : ∀ (d : Dialog) op, d.Fitting → ((step dokun d op).Roomy ↔ Leaves d op) :=
      fun d op h => roomy_step_iff h.sound h.roomy op
    have hkeep : ∀ (d : Dialog) op, d.Fitting → (step dokun d op).Roomy →
        (step dokun d op).Fitting := fun d op h hroomy => ⟨h.sound.step op, hroomy⟩
    exact along_iff_of_exact hexact hkeep (fitting_dialog hwidth) ops
  · intro d text i hout
    have hd : d.Sound := run_inv (fun _ op hd => hd.step op) (sound_dialog dokun active) ops
    rw [step_setText hd, if_neg hout]

end Room

end Neroshop.MessageBox
