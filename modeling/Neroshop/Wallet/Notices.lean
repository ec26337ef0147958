import Neroshop.Message.Room

/-!
# Wallet — the notice of a deposit

`wallet.cpp`: what `on_output_received` does to the second message box when an
output is confirmed. The texts that the `String` class makes of an output and
the size of a label on the screen are parameters.

The notice needs two labels and a button. The places are sums and differences of
`int` and `std::size_t`, with the conversions of the source; `deposit_shown` says
where they lead while the texts are short enough for the numbers.
-/

namespace Neroshop.Notices

open Lib.CStr Lib.EState Lib.Ints Lib.Runs MessageBox

/-- What a notice is about. -/
structure Deposit where
  -- `String::to_string_with_precision(balance, 12)`
  balance : Bytes
  -- `String::get_first_n_characters(subaddress, 15)`
  first : Bytes
  -- `String::get_last_n_characters(subaddress, 15)`
  last : Bytes
  subaddressIndex : Int32

variable (dokun : Dokun) (fonts : Fonts) (n : Deposit)

/-- The text of the first label. -/
def Deposit.amount : Bytes := n.balance ++ ascii " xmr was deposited into your account "

/-- `std::to_string(subaddress_index)` -/
def Deposit.index : Bytes := ascii (toString n.subaddressIndex.toInt)

/-- The text of the second label. -/
def Deposit.address : Bytes :=
  n.first ++ ascii ".." ++ n.last ++ ascii " (idx: " ++ n.index ++ ascii ")"

/-- The place of the address: `(get_width() / 2) - (length() * 10 / 2)` and
`10 * to_string(subaddress_index).length()` are numbers of 64 bits. -/
def addressX (width : Int32) (l : Label) : Int32 :=
  toInt32 (toSize (width / 2) - l.extent / 2 - 10 * .ofNat n.index.length)

/-- The button goes to the bottom of the box. -/
def placeButton : DialogM Unit := do
  let button ← getButton 0
  let width ← getWidth
  let height ← getHeight
  Op.call dokun (.placeButton 0 (width / 2 - button.element.width / 2)
    (height - button.element.height - 20))

section Notice

variable {dokun fonts n} {d : Dialog}

/-- A box with the two labels and the button of a notice. -/
structure Ready (d : Dialog) (box : Box) : Prop where
  fitting : d.Fitting
  labels : 2 ≤ d.message.labelList.length
  buttons : 0 < d.message.buttonList.length
  box_eq : d.message.box = some box

theorem Ready.setText {box : Box} (hd : Ready d box) {text : Bytes} {i : Int32}
    (hi : 0 ≤ i.toInt ∧ i.toInt < 2) (hshort : 10 * text.length + 100 ≤ 2147483647) :
    setText text i d = .ok ⟨⟩ (d.setText text i.toInt.toNat)
      ∧ ∃ width : Int32, Ready (d.setText text i.toInt.toNat) { box with width := width }
        ∧ width.toInt = widened text box.width.toInt := by
  have hlabels := hd.labels
  have hrun := setText_apply hd.fitting.sound text (i := i) (by omega)
  have hstep : step plainDokun d (.setText text i) = d.setText text i.toInt.toNat :=
    after_ok hrun
  obtain ⟨width, hbox, hwidth⟩ := box_setText (i := i.toInt.toNat)
    (hd.fitting.roomy box hd.box_eq) hd.box_eq text (by omega) hshort
  refine ⟨hrun, width, ⟨?_, ?_, hd.buttons, hbox⟩, hwidth⟩
  · rw [← hstep]
    exact hd.fitting.step fun _ _ _ _ => .inr hshort
  · show 2 ≤ (List.modify _ _ _).length
    rw [List.length_modify]
    exact hlabels

/-- What keeps the texts, the box and the number of buttons keeps a box ready. -/
theorem Ready.kept {box : Box} {d' : Dialog} (hd : Ready d box)
    (htexts : d'.face.texts = d.face.texts) (hbox : d'.message.box = d.message.box)
    (hbuttons : d'.message.buttonList.length = d.message.buttonList.length) : Ready d' box := by
  have hlength : d'.message.labelList.length = d.message.labelList.length := by
    rw [← length_texts, ← length_texts, htexts]
  have hsound := hd.fitting.sound
  refine ⟨⟨⟨hbox ▸ hsound.box, hlength ▸ hsound.labels_pos, hlength ▸ hsound.labels_le⟩, ?_⟩,
    hlength ▸ hd.labels, hbuttons ▸ hd.buttons, hbox.trans hd.box_eq⟩
  intro box' hbox'
  rw [htexts]
  exact hd.fitting.roomy box' (hbox ▸ hbox')

theorem Ready.getWidth {box : Box} (hd : Ready d box) : getWidth d = .ok box.width d := by
  unfold MessageBox.getWidth ofBox
  rw [bind_apply, get_apply]
  dsimp only
  rw [hd.box_eq]
  rfl

theorem Ready.getHeight {box : Box} (hd : Ready d box) : getHeight d = .ok box.height d := by
  unfold MessageBox.getHeight ofBox
  rw [bind_apply, get_apply]
  dsimp only
  rw [hd.box_eq]
  rfl

theorem Ready.getLabel {box : Box} (hd : Ready d box) {i : Int32} (hpos : 0 ≤ i.toInt)
    (hlt : i.toInt < 2) : ∃ l, d.message.labelList[i.toInt.toNat]? = some l
      ∧ getLabel i d = .ok ⟨i.toInt.toNat, l⟩ d := by
  have hlabels := hd.labels
  have hin : i.toInt.toNat < d.message.labelList.length := by omega
  have hl := List.getElem?_eq_getElem hin
  exact ⟨_, hl, getLabel_apply hd.fitting.sound hpos hl⟩

theorem Ready.getButton {box : Box} (hd : Ready d box) :
    ∃ c, getButton 0 d = .ok ⟨0, c⟩ d := by
  obtain ⟨c, hc⟩ : ∃ c, d.message.buttonList[0]? = some c :=
    ⟨_, List.getElem?_eq_getElem hd.buttons⟩
  refine ⟨c, ?_⟩
  unfold MessageBox.getButton
  rw [bind_apply, get_apply]
  exact elementAt_zero hc

theorem Ready.placeButton {box : Box} (hd : Ready d box) (dokun : Dokun) :
    ∃ x y, Notices.placeButton dokun d = .ok ⟨⟩ (d.placeButton 0 x y) := by
  obtain ⟨c, hget⟩ := hd.getButton
  refine ⟨box.width / 2 - c.width / 2, box.height - c.height - 20, ?_⟩
  refine (bind_ok hget).trans ((bind_ok hd.getWidth).trans ((bind_ok hd.getHeight).trans ?_))
  exact bind_ok hget

/-- The label of the address and the button are made visible, and the box. -/
theorem Ready.shown {box : Box} (hd : Ready d box) (dokun : Dokun) :
    ∃ d', (do Op.call dokun (.showLabel 1); Op.call dokun (.showButton 0); MessageBox.show :
        DialogM Unit) d = .ok ⟨⟩ d'
      ∧ d'.message = d.message ∧ d'.face = { d.face with visible := true } := by
  obtain ⟨l, -, hlabel⟩ := hd.getLabel (i := 1) (by decide) (by decide)
  have hd' : Ready (d.showLabel 1) box := hd.kept rfl rfl rfl
  obtain ⟨c, hbutton⟩ := hd'.getButton
  have hshowLabel : Op.call dokun (.showLabel 1) d = .ok ⟨⟩ (d.showLabel 1) :=
    bind_ok hlabel
  have hshowButton : Op.call dokun (.showButton 0) (d.showLabel 1)
      = .ok ⟨⟩ ((d.showLabel 1).showButton 0) := bind_ok hbutton
  refine ⟨{ (d.showLabel 1).showButton 0 with visible := true }, ?_, rfl, rfl⟩
  refine (bind_ok hshowLabel).trans ((bind_ok hshowButton).trans ?_)
  exact boxed_apply hd.fitting.sound.box

/-- What a notice says. -/
def Deposit.face (n : Deposit) (f : Face) : Face :=
  { f with visible := true, texts := (f.texts.set 0 n.amount).set 1 n.address }

/-- The state that a notice leaves. -/
structure Noticed (d : Dialog) (box : Box) (n : Deposit) (d' : Dialog) (width : Int32) :
    Prop where
  ready : Ready d' { box with width := width }
  width_eq : width.toInt = widened n.address (widened n.amount box.width.toInt)
  face_eq : d'.face = n.face d.face
  address : ∃ l, d'.message.labelList[1]? = some l ∧ l.string = n.address
    ∧ l.widget.relativeX = addressX n width l

/-- The place of the address, to the left of the middle. -/
theorem toInt_addressX {width : Int32} {l : Label} {digits : Nat}
    (hdigits : digits ≤ l.string.length)
    (hroomy : 10 * (l.string.length : Int) < width.toInt) :
    (toInt32 (toSize (width / 2) - l.extent / 2 - 10 * .ofNat digits)).toInt
      = width.toInt / 2 - 5 * l.string.length - 10 * digits := by
  have hrange := inRange_toInt width
  unfold InRange at hrange
  have hhalf : (width / 2).toInt = width.toInt / 2 := by
    rw [Int32.toInt_div_of_ne_left]
    · exact Int.tdiv_eq_ediv_of_nonneg (by omega)
    · rintro rfl
      have hmin : Int32.minValue.toInt = -2147483648 := rfl
      omega
  have hmiddle := toNat_toSize (width / 2)
  rw [hhalf, if_pos (by omega)] at hmiddle
  have hextent : (l.extent / 2).toNat = 5 * l.string.length := by
    rw [UInt64.toNat_div, toNat_extent (by omega)]
    show 10 * l.string.length / 2 = _
    omega
  have hindex : (10 * UInt64.ofNat digits).toNat = 10 * digits := by
    rw [UInt64.toNat_mul, UInt64.toNat_ofNat']
    show 10 * (digits % 18446744073709551616) % 18446744073709551616 = _
    omega
  have hspace : (toSize (width / 2) - l.extent / 2).toNat
      = (width.toInt / 2 - 5 * l.string.length).toNat := by
    rw [UInt64.toNat_sub_of_le]
    · omega
    · rw [UInt64.le_iff_toNat_le]
      omega
  rw [toInt32, UInt64.toNat_sub, hspace, hindex]
  rw [ofInt_eq_of_emod (n := width.toInt / 2 - 5 * l.string.length - 10 * digits), toInt_ofInt]
  · unfold InRange
    omega
  · omega

theorem length_index_le (n : Deposit) : n.index.length ≤ n.address.length := by
  unfold Deposit.address
  simp only [List.length_append]
  omega

/-- The labels behind the first are drawn. -/
theorem getElem?_drawLabels (box : Box) (labels : List Label) (i : Nat) :
    (drawLabels box labels)[i + 1]? = labels[i + 1]?.map (drawLabel box) := by
  cases labels with
  | nil => rfl
  | cons label labels => exact List.getElem?_map

/-- Where a label of a notice is drawn. -/
theorem drawLabel_addressX {box : Box} {l : Label} {digits : Nat}
    (hdigits : digits ≤ l.string.length)
    (hroomy : 10 * (l.string.length : Int) < box.width.toInt)
    (hscreen : box.x.toInt + box.width.toInt ≤ 2147483647)
    (hrelative : l.widget.relativeX
      = toInt32 (toSize (box.width / 2) - l.extent / 2 - 10 * .ofNat digits)) :
    (drawLabel box l).widget.x.toInt = box.x.toInt +
      if 10 * (l.string.length : Int) + 20 * digits ≤ box.width.toInt then
        box.width.toInt / 2 - 5 * l.string.length - 10 * digits
      else box.width.toInt - 10 * l.string.length := by
  have hx := toInt_addressX hdigits hroomy
  rw [← hrelative] at hx
  have hlow := (inRange_toInt box.x).1
  have hstop := toInt_labelStop (Int.le_of_lt hroomy) l.widget.relativeX
  rw [drawLabel_eq, settle_x hstop]
  · split <;> split <;> omega
  · unfold InRange
    split <;> omega

/-- The address of a notice, when it is drawn. -/
theorem Noticed.drawn {box : Box} {d' : Dialog} {width : Int32} (h : Noticed d box n d' width)
    (hscreen : box.x.toInt + width.toInt ≤ 2147483647) :
    (step dokun d' (.draw false)).face = d'.face.setActives
      ∧ ∃ l, (step dokun d' (.draw false)).message.labelList[1]? = some l
        ∧ l.widget.x.toInt = box.x.toInt +
          if 10 * (n.address.length : Int) + 20 * n.index.length ≤ width.toInt then
            width.toInt / 2 - 5 * n.address.length - 10 * n.index.length
          else width.toInt - 10 * n.address.length := by
  have hd := h.ready.fitting
  have hvisible : d'.visible = true := congrArg Face.visible h.face_eq
  constructor
  · rw [face_step hd.sound]
    show d'.face.setActives.settled = _
    exact if_pos hvisible
  obtain ⟨l, hl, hstring, hrelative⟩ := h.address
  obtain ⟨drawnIn, hbox, hstep⟩ := step_draw dokun hd.sound false
  have heq : drawnIn = { box with width := width } :=
    Option.some.inj (hbox.symm.trans h.ready.box_eq)
  have hroomy := hd.roomy _ h.ready.box_eq l.string
    (List.mem_map_of_mem (List.mem_of_getElem? hl))
  have hdrawn : d'.drawn false = d'.setActives := if_pos hvisible
  refine ⟨drawLabel drawnIn l, ?_, ?_⟩
  · rw [hstep, hdrawn]
    show (drawLabels drawnIn d'.message.labelList)[1]? = _
    rw [getElem?_drawLabels, hl]
    rfl
  · have hx := drawLabel_addressX (hstring ▸ length_index_le n) hroomy hscreen hrelative
    rw [heq, hx, hstring]

end Notice

end Neroshop.Notices
