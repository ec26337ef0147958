import Neroshop.Lib.Runs
import Neroshop.Qr.Failure

/-!
# QR — reading the image back

A reader of an exported image looks at one pixel of each module, in the middle
of its block. The blocks that `write_to_png` draws are one pixel off, and the
question is whether the middle still shows the module. Before that the image
has to reach the disk: what libpng is given is buffered until `fclose`, and
`write_to_png` does not look at what `fclose` returns.
-/

namespace Neroshop.Qr

open Lib.CStr Lib.Runs
open Lib.EState (bind_eq_ok)

/-- The colour of a pixel, read from its first byte; `none` beyond the image. -/
def readPixel (rows : List Bytes) (x y : Nat) : Option Bool := do
  let row ← rows[y]?
  let byte ← row[x * 3]?
  return byte == 0

/-- The middle of the block `i` of blocks of `m` pixels. -/
def middle (m i : Nat) : Nat := i * m + m / 2

/-- The module at `(i, j)`, as it is read from an image with `m` pixels for
the side of a module. -/
def readModule (rows : List Bytes) (m i j : Nat) : Option Bool :=
  readPixel rows (middle m i) (middle m j)

/-- Each module is read as it is. -/
def Scans (rows : List Bytes) (m : Nat) (qr : Symbol) : Prop :=
  ∀ i < qr.size, ∀ j < qr.size, readModule rows m i j = some (qr.getModule i j)

/-- The file holds a finished image that is read so. -/
def Content.Scans (content : Option Content) (m : Nat) (qr : Symbol) : Prop :=
  ∃ width height rows, content = some (.png width height rows true) ∧ Neroshop.Qr.Scans rows m qr

/-! ## One image -/

section Image

variable {qr : Symbol} {m : Nat} {rows : List Bytes} {width height : Nat}
  {shown : Nat → Nat → Bool}

theorem readPixel_shows (h : Shows rows width height shown) {x y : Nat} (hx : x < width)
    (hy : y < height) : readPixel rows x y = some (shown x y) := by
  obtain ⟨row, hrow, -, hpixels⟩ := h.2 y hy
  obtain ⟨hbyte, -, -⟩ := hpixels x hx
  simp only [readPixel, hrow, hbyte, Option.bind_eq_bind, Option.bind_some, Option.pure_def]
  cases shown x y <;> rfl

theorem middle_lt (hm : 0 < m) {i n : Nat} (hi : i < n) : middle m i < n * m := by
  have hhalf : m / 2 < m := Nat.div_lt_self hm (by decide)
  have hblock : (i + 1) * m ≤ n * m := Nat.mul_le_mul_right m hi
  rw [Nat.succ_mul] at hblock
  unfold middle
  omega

/-- From two pixels on, the middle lies behind the first pixel of its block. -/
theorem middle_sub_one_div (hm : 2 ≤ m) (i : Nat) : (middle m i - 1) / m = i := by
  have hhalf : 0 < m / 2 ∧ m / 2 < m := ⟨by omega, Nat.div_lt_self (by omega) (by decide)⟩
  have heq : middle m i - 1 = (m / 2 - 1) + i * m := by
    unfold middle
    omega
  rw [heq, Nat.add_mul_div_right _ _ (by omega : 0 < m), Nat.div_eq_of_lt (by omega),
    Nat.zero_add]

/-- **When an image can be read**: with two pixels or more for the side of a
module, or of a symbol of one colour. -/
theorem scans_iff (hm : 1 ≤ m) (h : Shows rows (qr.size * m) (qr.size * m) (qr.drawn m)) :
    Scans rows m qr ↔ 2 ≤ m ∨ qr.OneColour := by
  have hread : ∀ i < qr.size, ∀ j < qr.size,
      readModule rows m i j = some (qr.drawn m (middle m i) (middle m j)) := by
    intro i hi j hj
    exact readPixel_shows h (middle_lt hm hi) (middle_lt hm hj)
  have hscans : Scans rows m qr ↔ ∀ i < qr.size, ∀ j < qr.size,
      qr.drawn m (middle m i) (middle m j) = qr.getModule i j := by
    constructor
    · intro hs i hi j hj
      exact Option.some.inj ((hread i hi j hj).symm.trans (hs i hi j hj))
    · intro hs i hi j hj
      rw [hread i hi j hj, hs i hi j hj]
  rw [hscans]
  by_cases htwo : 2 ≤ m
  · refine iff_of_true ?_ (.inl htwo)
    intro i _ j _
    rw [Symbol.drawn, middle_sub_one_div htwo, middle_sub_one_div htwo]
  · obtain rfl : m = 1 := by omega
    rw [or_iff_right htwo, ← drawn_eq_magnified_iff hm]
    simp only [middle, Nat.mul_one, Symbol.magnified, Nat.div_one, Nat.reduceDiv, Nat.add_zero]

theorem not_scans_nil (qr : Symbol) (m : Nat) : ¬ Scans [] m qr := by
  intro h
  have hnone : (none : Option Bool) = some (qr.getModule 0 0) := h 0 qr.size_pos 0 qr.size_pos
  cases hnone

end Image

/-! ## Later exports -/

section Later

variable {env : Env} {encodeText : Bytes → Ecc → Option Symbol} {disk : Disk} {w : Export}
  {q : QR}

/-- How the `fclose` of an export goes. -/
inductive Closing where
  -- what is buffered reaches the disk
  | whole
  -- the disk is full: the bytes that found room, fewer than the image has
  | cut (bytes : Bytes)

/-- The content of a file that is closed. -/
def Closing.leaves : Closing → Option Content → Option Content
  | .whole, content => content
  | .cut bytes, _ => some (.bytes bytes)

/-- The export gets as far as `fopen`, and opens the file. -/
def QR.opened (q : QR) (env : Env) (disk : Disk) : Bool :=
  !q.text.isEmpty
    && !(!q.overwriteExistingFile && ((disk (untilZero q.filename)).isSome && env.readable))
    && env.opens

/-- `to_png`, to the end of its `fclose`. -/
def QR.closed (q : QR) (env : Env) (closing : Closing)
    (encodeText : Bytes → Ecc → Option Symbol) (disk : Disk) : Except Abort Export := do
  let w ← q.toPng env encodeText disk
  let name := untilZero q.filename
  return if q.opened env disk then
    { w with disk := Function.update w.disk name (closing.leaves (w.disk name)) }
  else w

/-- One more export, unless a call before it has ended the program. -/
def exportStep (encodeText : Bytes → Ecc → Option Symbol) (d : Except Abort Disk)
    (e : QR × Env × Closing) : Except Abort Disk := do
  let disk ← d
  let w ← e.1.closed e.2.1 e.2.2 encodeText disk
  return w.disk

/-- The answer is that of `to_png`: it does not depend on the closing. -/
theorem QR.closed_eq_ok {q : QR} {closing : Closing}
    (h : q.closed env closing encodeText disk = .ok w) :
    ∃ w', q.toPng env encodeText disk = .ok w' ∧ w.ok = w'.ok
      ∧ w.disk (untilZero q.filename)
        = (if q.opened env disk then closing.leaves (w'.disk (untilZero q.filename))
          else w'.disk (untilZero q.filename))
      ∧ ∀ name, name ≠ untilZero q.filename → w.disk name = w'.disk name := by
  obtain ⟨w', hw', hw⟩ := bind_eq_ok.mp h
  refine ⟨w', hw', ?_⟩
  cases hw
  split
  · exact ⟨rfl, Function.update_self .., fun name hname => Function.update_of_ne hname ..⟩
  · exact ⟨rfl, rfl, fun _ _ => rfl⟩

/-- An export touches its own file only. -/
theorem toPng_other {q : QR} (h : q.toPng env encodeText disk = .ok w) {name : Bytes}
    (hname : name ≠ untilZero q.filename) : w.disk name = disk name := by
  unfold QR.toPng at h
  dsimp only at h
  split at h
  · cases h
    rfl
  split at h
  · cases h
    rfl
  split at h
  · cases h
  · rcases writeToPng_cases h with ⟨-, -, hdisk⟩ | ⟨-, -, content, -, hdisk⟩ |
      ⟨-, -, -, rows, -, hdisk⟩
    · rw [hdisk]
    · rw [hdisk, Function.update_of_ne hname]
    · rw [hdisk, Function.update_of_ne hname]

/-- An export that is not to overwrite keeps a file that it can read. -/
theorem closed_keeps {q : QR} {closing : Closing}
    (h : q.closed env closing encodeText disk = .ok w)
    (hoverwrite : q.overwriteExistingFile = false) (hreadable : env.readable = true)
    {name : Bytes} (hname : (disk name).isSome) : w.disk name = disk name := by
  obtain ⟨w', hw', -, hown, hothers⟩ := QR.closed_eq_ok h
  by_cases heq : name = untilZero q.filename
  · subst heq
    have hclosed : q.opened env disk = false := by
      simp [QR.opened, hoverwrite, hname, hreadable]
    rw [hclosed, if_neg Bool.false_ne_true] at hown
    rw [hown]
    unfold QR.toPng at hw'
    simp only [hoverwrite, hname, hreadable] at hw'
    split at hw' <;> cases hw' <;> rfl
  · rw [hothers name heq]
    exact toPng_other hw' heq

theorem later_keeps {later : List (QR × Env × Closing)}
    (hlater : ∀ e ∈ later, e.1.overwriteExistingFile = false ∧ e.2.1.readable = true)
    {d : Disk} (hrun : run (exportStep encodeText) (.ok disk) later = .ok d) {name : Bytes}
    (hname : (disk name).isSome) : d name = disk name := by
  induction later generalizing disk with
  | nil =>
      cases hrun
      rfl
  | cons e later ih =>
      obtain ⟨hoverwrite, hreadable⟩ := hlater e List.mem_cons_self
      rw [run_cons] at hrun
      cases hexport : e.1.closed e.2.1 e.2.2 encodeText disk with
      | error a =>
          have hstep : exportStep encodeText (.ok disk) e = .error a := by
            simp [exportStep, hexport, bind, Except.bind]
          rw [hstep, run_fixed fun _ => rfl] at hrun
          cases hrun
      | ok w =>
          have hstep : exportStep encodeText (.ok disk) e = .ok w.disk := by
            simp [exportStep, hexport, bind, Except.bind, pure, Except.pure]
          rw [hstep] at hrun
          have hkeep := closed_keeps hexport hoverwrite hreadable hname
          have hrest := ih (fun e he => hlater e (List.mem_cons_of_mem _ he)) hrun
            (hkeep ▸ hname)
          exact hrest.trans hkeep

/-- How many pixels `to_png` gives to the side of a module. -/
def QR.pixels (q : QR) (qrCode : Symbol) : Nat := q.size.toNat / qrCode.size

/-- A successful export has written the image of its symbol. -/
theorem toPng_written {q : QR} (hlow : 0 ≤ q.size)
    (h : q.toPng env encodeText disk = .ok w) (hok : w.ok = true) :
    q.opened env disk = true ∧ ∃ qrCode, encodeText (untilZero q.text) q.ecc = some qrCode
      ∧ writeToPng env q.filename qrCode (q.pixels qrCode : Nat) disk = .ok w := by
  unfold QR.toPng at h
  dsimp only at h
  split at h
  · cases h
    cases hok
  next htext =>
  split at h
  · cases h
    cases hok
  next hwrites =>
  split at h
  · cases h
  next qrCode hcode =>
  have hopens : env.opens = true := by
    rcases writeToPng_cases h with hnone | hfails | hworks
    · rw [hok] at hnone
      cases hnone.2.1
    · exact hfails.1
    · exact hworks.1
  refine ⟨?_, qrCode, hcode, ?_⟩
  · rw [QR.opened, hopens, Bool.eq_false_iff.mpr htext, Bool.eq_false_iff.mpr hwrites]
    rfl
  have hpixels : q.size.tdiv qrCode.size = (q.pixels qrCode : Nat) := by
    obtain ⟨n, hn⟩ := Int.eq_ofNat_of_zero_le hlow
    rw [QR.pixels, hn]
    exact (Int.ofNat_tdiv n qrCode.size).symm
  rwa [hpixels] at h

theorem rowsOf_zero {qr : Symbol} {rows : List Bytes}
    (h : rowsOf env qr 0 (qr.size * 0) = .ok rows) : rows = [] := by
  unfold rowsOf at h
  obtain ⟨m3, hm3, h⟩ := bind_eq_ok.mp h
  obtain ⟨size, hsize, h⟩ := bind_eq_ok.mp h
  split at h
  · cases h
    simp [drawRows, Lib.Loop.forTo]
  · rw [Int.mul_zero, if_neg (by decide)] at h
    cases h
    rfl

/-- The image of a successful export, before the closing. -/
theorem scans_written (hlow : 0 ≤ q.size) (hhigh : q.size ≤ 2147483647)
    (h : q.toPng env encodeText disk = .ok w) (hok : w.ok = true) :
    q.opened env disk = true
      ∧ ∃ qrCode rows, encodeText (untilZero q.text) q.ecc = some qrCode
        ∧ w.disk (untilZero q.filename)
          = some (.png (q.imageSize qrCode) (q.imageSize qrCode) rows true)
        ∧ (Scans rows (q.pixels qrCode) qrCode
          ↔ 2 ≤ q.pixels qrCode ∨ (q.pixels qrCode = 1 ∧ qrCode.OneColour)) := by
  obtain ⟨hopened, qrCode, hcode, hwrites⟩ := toPng_written hlow h hok
  obtain ⟨qrCode', rows, hcode', hdisk⟩ := QR.toPng_imageSize hlow hhigh h hok
  obtain rfl : qrCode = qrCode' := Option.some.inj (hcode.symm.trans hcode')
  refine ⟨hopened, qrCode, rows, hcode, hdisk, ?_⟩
  generalize q.pixels qrCode = m at hwrites
  by_cases hm : 1 ≤ m
  · obtain ⟨rows', hdisk', hshows⟩ := writeToPng_shows hm hwrites hok
    obtain rfl : rows = rows' := rows_unique hdisk (by exact_mod_cast hdisk')
    rw [scans_iff hm hshows]
    constructor
    · intro hread
      by_cases htwo : 2 ≤ m
      · exact .inl htwo
      · exact .inr ⟨by omega, hread.resolve_left htwo⟩
    · intro hread
      rcases hread with htwo | ⟨-, hone⟩
      · exact .inl htwo
      · exact .inr hone
  · obtain rfl : m = 0 := by omega
    obtain ⟨rows', hrows, hdisk'⟩ := writeToPng_true hwrites hok
    obtain rfl : rows' = [] := rowsOf_zero hrows
    obtain rfl : rows = [] := rows_unique hdisk (by exact_mod_cast hdisk')
    exact iff_of_false (not_scans_nil qrCode 0) (by omega)

/-- **An exported code, read back**: whatever else is exported afterwards,
without permission to overwrite, the symbol can be read from the file of an
export that returned `true` exactly when `fclose` wrote all of the image out
and a module has two pixels for its side, or one and the symbol is of one
colour. An image that was written out has the side that `image_size` says; of
another the file has the bytes that found room, and the answer was the same. -/
theorem exported_scans_iff (encodeText : Bytes → Ecc → Option Symbol) (q : QR) (env : Env)
    (closing : Closing) (disk : Disk) (w : Export) (hlow : 0 ≤ q.size)
    (hhigh : q.size ≤ 2147483647) (h : q.closed env closing encodeText disk = .ok w)
    (hok : w.ok = true) (later : List (QR × Env × Closing))
    (hlater : ∀ e ∈ later, e.1.overwriteExistingFile = false ∧ e.2.1.readable = true)
    (d : Disk) (hrun : run (exportStep encodeText) (.ok w.disk) later = .ok d) :
    ∃ qrCode rows, encodeText (untilZero q.text) q.ecc = some qrCode
      ∧ d (untilZero q.filename) = closing.leaves
        (some (.png (q.imageSize qrCode) (q.imageSize qrCode) rows true))
      ∧ (Content.Scans (d (untilZero q.filename)) (q.pixels qrCode) qrCode
        ↔ closing = .whole
          ∧ (2 ≤ q.pixels qrCode ∨ (q.pixels qrCode = 1 ∧ qrCode.OneColour))) := by
  obtain ⟨w', hw', hok', hown, -⟩ := QR.closed_eq_ok h
  rw [hok] at hok'
  obtain ⟨hopened, qrCode, rows, hcode, hdisk, hscans⟩ := scans_written hlow hhigh hw' hok'.symm
  rw [hopened, if_pos rfl, hdisk] at hown
  have hd : d (untilZero q.filename) = closing.leaves
      (some (.png (q.imageSize qrCode) (q.imageSize qrCode) rows true)) := by
    rw [later_keeps hlater hrun (by rw [hown]; cases closing <;> rfl), hown]
  refine ⟨qrCode, rows, hcode, hd, ?_⟩
  rw [hd, ← hscans]
  cases closing with
  | whole =>
      rw [and_iff_right rfl]
      constructor
      · rintro ⟨width, height, rows', hrows, hread⟩
        cases hrows
        exact hread
      · intro hread
        exact ⟨_, _, rows, rfl, hread⟩
  | cut bytes =>
      refine iff_of_false ?_ nofun
      rintro ⟨width, height, rows', hrows, -⟩
      cases hrows

end Later

/-- A code of four pixels to a module, with an export to the same file after it. -/
theorem exported_scans_finder :
    ∃ w d, ((0 : Int) ≤ 84 ∧ (84 : Int) ≤ 2147483647
        ∧ (QR.mk (ascii "qr.png") 84 (ascii "monero:") true .low).closed working .whole
          (fun _ _ => some finder) (fun _ => none) = .ok w ∧ w.ok = true
        ∧ run (exportStep fun _ _ => some finder) (.ok w.disk)
          [(QR.mk (ascii "qr.png") 21 (ascii "other") false .low, working, .cut [])] = .ok d)
      ∧ ∃ rows, d (ascii "qr.png") = some (.png 84 84 rows true)
        ∧ Content.Scans (d (ascii "qr.png")) 4 finder := by
  have hworks : ∃ w, writeToPng working (ascii "qr.png") finder (4 : Nat) (fun _ => none)
      = .ok w ∧ w.ok = true := writeToPng_works (working_works _) (by decide)
  obtain ⟨w, hw, hok⟩ := hworks
  have hexport : (QR.mk (ascii "qr.png") 84 (ascii "monero:") true .low).toPng working
      (fun _ _ => some finder) (fun _ => none) = .ok w := by
    exact (QR.toPng_writes (by decide) (by simp [QR.Refuses]) rfl).trans hw
  have hclosed : (QR.mk (ascii "qr.png") 84 (ascii "monero:") true .low).closed working .whole
      (fun _ _ => some finder) (fun _ => none) = .ok w := by
    simp [QR.closed, hexport, Closing.leaves, bind, Except.bind, pure, Except.pure]
  obtain ⟨rows, hdisk, -⟩ := writeToPng_shows (by decide) hw hok
  have hlater : run (exportStep fun _ _ => some finder) (.ok w.disk)
      [(QR.mk (ascii "qr.png") 21 (ascii "other") false .low, working, .cut [])]
      = .ok w.disk := by
    have hthere : (w.disk (untilZero (ascii "qr.png"))).isSome = true := by rw [hdisk]; rfl
    have hrefuses : (QR.mk (ascii "qr.png") 21 (ascii "other") false .low).Refuses working
        w.disk := ⟨rfl, hthere, rfl⟩
    have hopened : (QR.mk (ascii "qr.png") 21 (ascii "other") false .low).opened working
        w.disk = false := by simp [QR.opened, hthere, working]
    simp [exportStep, QR.closed, hopened, QR.toPng_refuses (by decide) hrefuses, bind,
      Except.bind, pure, Except.pure]
  refine ⟨w, w.disk, ⟨by decide, by decide, hclosed, hok, hlater⟩, ?_⟩
  obtain ⟨qrCode, rows', hcode, hdisk', hscans⟩ := exported_scans_iff _ _ _ _ _ w (by decide)
    (by decide) hclosed hok _ (by simp [working]) w.disk hlater
  cases hcode
  exact ⟨rows', hdisk', hscans.mpr ⟨rfl, .inl (by decide)⟩⟩

end Neroshop.Qr
