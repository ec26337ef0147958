import Mathlib.Algebra.Order.Group.Nat
import Neroshop.Lib.CStr
import Neroshop.Lib.Loop

/-!
# QR — the pixels

`qr.cpp`: the two nested loops of `write_to_png`, which draw a QR symbol row
by row into one buffer, three bytes to a pixel. The library that makes the
symbols is a parameter.

The loops look for the next module behind the pixel that they have drawn, so they
change to it one pixel late. `drawRows_shows` says which module each pixel shows
(`Symbol.drawn`), by an invariant for each loop, and `drawn_eq_magnified_iff` when
that is the module that belongs there.
-/

namespace Neroshop.Qr

open Lib.CStr Lib.Loop

/-- A `qrcodegen::QrCode`: the side and the colours of the modules. -/
structure Symbol where
  size : Nat
  size_pos : 0 < size
  dark : Nat → Nat → Bool

/-- `getModule`: outside the symbol the modules are light. -/
def Symbol.getModule (qr : Symbol) (x y : Nat) : Bool :=
  decide (x < qr.size) && decide (y < qr.size) && qr.dark x y

/-- Black or white. -/
def colour (dark : Bool) : Byte := if dark then 0 else 255

/-- The three bytes of a pixel. -/
def drawPixel (row : Bytes) (x : Nat) (v : Byte) : Bytes :=
  ((row.set (x * 3 + 2) v).set (x * 3 + 1) v).set (x * 3) v

/-- A counter after the pixel (or the row) `i` has been drawn. -/
def advance (multiplicator i offset : Nat) : Nat :=
  if i ≠ 0 ∧ i % multiplicator = 0 then offset + 1 else offset

/-- The locals of the loop over the columns. -/
structure RowState where
  offsetX : Nat
  row : Bytes

/-- A turn of the loop over the columns. -/
def columnTurn (qr : Symbol) (multiplicator offsetY : Nat) (s : RowState) (x : Nat) :
    RowState where
  row := drawPixel s.row x (colour (qr.getModule s.offsetX offsetY))
  offsetX := advance multiplicator x s.offsetX

/-- The inner loop: one row of `width` pixels. -/
def drawRow (qr : Symbol) (multiplicator width offsetY : Nat) (row : Bytes) : Bytes :=
  (forTo (columnTurn qr multiplicator offsetY) ⟨0, row⟩ width).row

/-- The locals of the loop over the rows. -/
structure ImageState where
  offsetY : Nat
  row : Bytes
  -- the rows that libpng has been given
  written : List Bytes

/-- A turn of the loop over the rows. -/
def rowTurn (qr : Symbol) (multiplicator width : Nat) (s : ImageState) (y : Nat) :
    ImageState :=
  let row := drawRow qr multiplicator width s.offsetY s.row
  { offsetY := advance multiplicator y s.offsetY
    row := row
    written := s.written ++ [row] }

/-- Both loops: the rows, drawn into a buffer that holds `memory` before. -/
def drawRows (qr : Symbol) (multiplicator width : Nat) (memory : Bytes) : List Bytes :=
  (forTo (rowTurn qr multiplicator width) ⟨0, memory, []⟩ width).written

/-- The three bytes of pixel `x` are all `v`. -/
def PixelIs (row : Bytes) (x : Nat) (v : Byte) : Prop :=
  row[x * 3]? = some v ∧ row[x * 3 + 1]? = some v ∧ row[x * 3 + 2]? = some v

/-! ## One row -/

section Row

variable {qr : Symbol} {m : Nat} {row : Bytes} {x : Nat} {v w : Byte}

@[simp] theorem length_drawPixel (row : Bytes) (x : Nat) (v : Byte) :
    (drawPixel row x v).length = row.length := by
  simp [drawPixel]

theorem pixelIs_drawPixel (hx : 3 * x + 3 ≤ row.length) (v : Byte) :
    PixelIs (drawPixel row x v) x v := by
  have h0 : x * 3 < row.length := by omega
  have h1 : x * 3 + 1 < row.length := by omega
  have h2 : x * 3 + 2 < row.length := by omega
  simp [PixelIs, drawPixel, h0, h1, h2]

theorem pixelIs_drawPixel_ne {x' : Nat} (hne : x' ≠ x) (h : PixelIs row x' w) :
    PixelIs (drawPixel row x v) x' w := by
  obtain ⟨h0, h1, h2⟩ := h
  have hset : ∀ j, j ≠ x * 3 → j ≠ x * 3 + 1 → j ≠ x * 3 + 2 →
      (drawPixel row x v)[j]? = row[j]? := by
    intro j hj0 hj1 hj2
    simp [drawPixel, Ne.symm hj0, Ne.symm hj1, Ne.symm hj2]
  refine ⟨?_, ?_, ?_⟩
  · rw [hset _ (by omega) (by omega) (by omega), h0]
  · rw [hset _ (by omega) (by omega) (by omega), h1]
  · rw [hset _ (by omega) (by omega) (by omega), h2]

theorem pixelIs_unique (h : PixelIs row x v) (h' : PixelIs row x w) : v = w :=
  Option.some.inj (h.1.symm.trans h'.1)

/-- What a counter stands at when pixel `i` is drawn: a block behind at the
first pixel of each block but the first. -/
theorem advance_eq (m i : Nat) : advance m i ((i - 1) / m) = i / m := by
  unfold advance
  cases i with
  | zero => simp
  | succ i =>
      rw [Nat.succ_div, Nat.add_sub_cancel]
      by_cases hdvd : m ∣ i + 1
      · rw [if_pos hdvd, if_pos ⟨Nat.succ_ne_zero i, Nat.mod_eq_zero_of_dvd hdvd⟩]
      · have hmod : ¬ (i + 1 ≠ 0 ∧ (i + 1) % m = 0) := by
          intro h
          exact hdvd (Nat.dvd_of_mod_eq_zero h.2)
        rw [if_neg hdvd, if_neg hmod, Nat.add_zero]

/-- What the inner loop has drawn before pixel `x`. -/
structure RowInv (qr : Symbol) (m offsetY length x : Nat) (s : RowState) : Prop where
  length_eq : s.row.length = length
  offset : s.offsetX = (x - 1) / m
  drawn : ∀ i < x, PixelIs s.row i (colour (qr.getModule ((i - 1) / m) offsetY))

theorem rowInv_turn {offsetY length : Nat} {s : RowState}
    (hlen : 3 * x + 3 ≤ length) (h : RowInv qr m offsetY length x s) :
    RowInv qr m offsetY length (x + 1) (columnTurn qr m offsetY s x) := by
  obtain ⟨hlength, hoffset, hdrawn⟩ := h
  refine ⟨?_, ?_, ?_⟩
  · rw [columnTurn, length_drawPixel, hlength]
  · rw [columnTurn, hoffset, advance_eq, Nat.add_sub_cancel]
  · intro i hi
    rw [columnTurn, hoffset]
    rcases Nat.lt_succ_iff_lt_or_eq.mp hi with hlt | rfl
    · exact pixelIs_drawPixel_ne (Nat.ne_of_lt hlt) (hdrawn i hlt)
    · exact pixelIs_drawPixel (hlength ▸ hlen) _

/-- **The inner loop**: the row keeps its length, and its pixels are the
modules of one row, a block behind. -/
theorem drawRow_spec {width : Nat} (offsetY : Nat)
    (hlen : row.length = 3 * width) :
    (drawRow qr m width offsetY row).length = 3 * width
      ∧ ∀ x < width, PixelIs (drawRow qr m width offsetY row) x
          (colour (qr.getModule ((x - 1) / m) offsetY)) := by
  have hstart : RowInv qr m offsetY (3 * width) 0 ⟨0, row⟩ :=
    ⟨hlen, (Nat.zero_div m).symm, fun i hi => absurd hi (Nat.not_lt_zero i)⟩
  have hinv := forTo_inv (RowInv qr m offsetY (3 * width)) width hstart
    (fun x s hx hs => rowInv_turn (by omega) hs)
  exact ⟨hinv.length_eq, hinv.drawn⟩

end Row

/-! ## The image -/

section Image

variable {qr : Symbol} {m width : Nat} {memory : Bytes}

/-- The rows of an image: how long they are, and the module that each pixel
shows. -/
def Shows (rows : List Bytes) (width height : Nat) (shown : Nat → Nat → Bool) : Prop :=
  rows.length = height
    ∧ ∀ y < height, ∃ row, rows[y]? = some row ∧ row.length = 3 * width
        ∧ ∀ x < width, PixelIs row x (colour (shown x y))

/-- The module that the code draws at a pixel. -/
def Symbol.drawn (qr : Symbol) (m x y : Nat) : Bool :=
  qr.getModule ((x - 1) / m) ((y - 1) / m)

/-- What the outer loop has drawn before row `y`. -/
structure ImageInv (qr : Symbol) (m width y : Nat) (s : ImageState) : Prop where
  length_eq : s.row.length = 3 * width
  offset : s.offsetY = (y - 1) / m
  written : Shows s.written width y (qr.drawn m)

theorem imageInv_turn {y : Nat} {s : ImageState}
    (h : ImageInv qr m width y s) :
    ImageInv qr m width (y + 1) (rowTurn qr m width s y) := by
  obtain ⟨hlength, hoffset, hrows, hshown⟩ := h
  obtain ⟨hrow, hpixels⟩ := drawRow_spec s.offsetY hlength
  refine ⟨hrow, ?_, ?_, ?_⟩
  · rw [rowTurn, hoffset, advance_eq, Nat.add_sub_cancel]
  · rw [rowTurn, List.length_append, hrows, List.length_singleton]
  · intro i hi
    rcases Nat.lt_succ_iff_lt_or_eq.mp hi with hlt | rfl
    · obtain ⟨row, hget, hrest⟩ := hshown i hlt
      refine ⟨row, ?_, hrest⟩
      rw [rowTurn, List.getElem?_append_left (hrows ▸ hlt), hget]
    · refine ⟨_, ?_, hrow, ?_⟩
      · rw [rowTurn, List.getElem?_append_right (Nat.le_of_eq hrows), hrows, Nat.sub_self,
          List.getElem?_cons_zero]
      · intro x hx
        rw [Symbol.drawn, ← hoffset]
        exact hpixels x hx

/-- **What the two loops draw**: an image of the right size, in which each
pixel shows the module of the pixel before it. -/
theorem drawRows_shows (hmemory : memory.length = 3 * width) :
    Shows (drawRows qr m width memory) width width (qr.drawn m) := by
  have hstart : ImageInv qr m width 0 ⟨0, memory, []⟩ :=
    ⟨hmemory, (Nat.zero_div m).symm, rfl, fun i hi => absurd hi (Nat.not_lt_zero i)⟩
  exact (forTo_inv (ImageInv qr m width) width hstart
    fun y s _ hs => imageInv_turn hs).written

theorem length_drawRows (qr : Symbol) (m width : Nat) (memory : Bytes) :
    (drawRows qr m width memory).length = width := by
  refine forTo_inv (fun y (s : ImageState) => s.written.length = y) width rfl ?_
  intro y s _ hs
  rw [rowTurn, List.length_append, hs, List.length_singleton]

theorem colour_inj {b b' : Bool} (h : colour b = colour b') : b = b' := by
  cases b <;> cases b' <;> first | rfl | exact absurd h (by decide)

theorem shows_iff {rows : List Bytes} {shown shown' : Nat → Nat → Bool}
    (h : Shows rows width width shown) :
    Shows rows width width shown'
      ↔ ∀ x < width, ∀ y < width, shown x y = shown' x y := by
  constructor
  · intro h' x hx y hy
    obtain ⟨row, hget, -, hpixels⟩ := h.2 y hy
    obtain ⟨row', hget', -, hpixels'⟩ := h'.2 y hy
    obtain rfl := Option.some.inj (hget.symm.trans hget')
    exact colour_inj (pixelIs_unique (hpixels x hx) (hpixels' x hx))
  · intro heq
    refine ⟨h.1, ?_⟩
    intro y hy
    obtain ⟨row, hget, hlen, hpixels⟩ := h.2 y hy
    refine ⟨row, hget, hlen, ?_⟩
    intro x hx
    rw [← heq x hx y hy]
    exact hpixels x hx

/-! ## Against the magnified symbol -/

/-- The symbol, `m` times as large. -/
def Symbol.magnified (qr : Symbol) (m x y : Nat) : Bool := qr.getModule (x / m) (y / m)

/-- All modules have the same colour. -/
def Symbol.OneColour (qr : Symbol) : Prop :=
  ∀ x < qr.size, ∀ y < qr.size, qr.getModule x y = qr.getModule 0 0

theorem mul_sub_one_div (hm : 0 < m) (i : Nat) : (i * m - 1) / m = i - 1 := by
  cases i with
  | zero => simp
  | succ i =>
      rw [Nat.succ_mul, Nat.add_sub_assoc hm, Nat.add_comm, Nat.add_mul_div_right _ _ hm,
        Nat.div_eq_of_lt (Nat.sub_lt hm Nat.one_pos), Nat.zero_add, Nat.add_sub_cancel]

/-- A symbol whose modules all have the colour of their neighbour towards the
origin has one colour. -/
theorem oneColour_of_diagonal (hback : ∀ i < qr.size, ∀ j < qr.size,
    qr.getModule i j = qr.getModule (i - 1) (j - 1)) : qr.OneColour := by
  have hall : ∀ k i j, i + j ≤ k → i < qr.size → j < qr.size →
      qr.getModule i j = qr.getModule 0 0 := by
    intro k
    induction k with
    | zero =>
        intro i j hk _ _
        obtain ⟨rfl, rfl⟩ : i = 0 ∧ j = 0 := by omega
        rfl
    | succ k ih =>
        intro i j hk hi hj
        by_cases h0 : i + j = 0
        · obtain ⟨rfl, rfl⟩ : i = 0 ∧ j = 0 := by omega
          rfl
        · rw [hback i hi j hj]
          exact ih (i - 1) (j - 1) (by omega) (by omega) (by omega)
  intro x hx y hy
  exact hall (x + y) x y (Nat.le_refl _) hx hy

/-- **When the loops magnify**: exactly the symbols of one colour. -/
theorem drawn_eq_magnified_iff (hm : 0 < m) :
    (∀ x < qr.size * m, ∀ y < qr.size * m, qr.drawn m x y = qr.magnified m x y)
      ↔ qr.OneColour := by
  constructor
  · intro h
    -- at the corner of a block the code draws the block before it, so every
    -- module has the colour of its neighbour towards the origin
    apply oneColour_of_diagonal
    intro i hi j hj
    have hcorner := h (i * m) (Nat.mul_lt_mul_of_pos_right hi hm) (j * m)
      (Nat.mul_lt_mul_of_pos_right hj hm)
    rw [Symbol.drawn, Symbol.magnified, mul_sub_one_div hm, mul_sub_one_div hm,
      Nat.mul_div_cancel _ hm, Nat.mul_div_cancel _ hm] at hcorner
    exact hcorner.symm
  · intro hone x hx y hy
    have hlt : ∀ {i}, i < qr.size * m → i / m < qr.size := by
      intro i hi
      exact Nat.div_lt_of_lt_mul (Nat.mul_comm qr.size m ▸ hi)
    have hback : ∀ {i}, i < qr.size * m → (i - 1) / m < qr.size := by
      intro i hi
      exact hlt (Nat.lt_of_le_of_lt (Nat.sub_le i 1) hi)
    rw [Symbol.drawn, Symbol.magnified, hone _ (hback hx) _ (hback hy),
      hone _ (hlt hx) _ (hlt hy)]

end Image

end Neroshop.Qr
