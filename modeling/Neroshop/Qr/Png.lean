import Mathlib.Logic.Function.Basic
import Mathlib.Tactic.Ring
import Neroshop.Lib.EState
import Neroshop.Qr.Raster

/-!
# QR — the image file

`qr.cpp`: `to_png` and `write_to_png`. The C library and libpng are an
environment that says how each call goes; the file is what libpng has been
given for it. An error that libpng reports comes back to the `setjmp`.

* `writeToPng` and `QR.toPng`: the calls, with what they leave on the disk.
* `Fails`: the ways for a call behind `fopen` to fail, with the file each leaves.
* `raster_exact_iff`: an image that is written shows the symbol exactly when all
  its modules have one colour.
-/

namespace Neroshop.Qr

open Lib.CStr
open Lib.EState (bind_eq_ok)

/-- What a file holds. -/
inductive Content where
  | bytes (b : Bytes)
  -- an image: its header, the rows so far, and whether it is complete
  | png (width height : Int) (rows : List Bytes) (ended : Bool)
  deriving DecidableEq

/-- The files, by name. -/
abbrev Disk := Bytes → Option Content

/-- The error correction of a symbol. -/
inductive Ecc where
  | low
  | medium
  | quartile
  | high

/-- How the calls of one export go. -/
structure Env where
  -- `std::ifstream`, on a file that exists
  readable : Bool
  -- `fopen`
  opens : Bool
  -- `png_create_write_struct`
  writeStruct : Bool
  -- `png_create_info_struct`
  infoStruct : Bool
  -- `png_set_IHDR`, for a width and a height
  headerOk : Int → Int → Bool
  -- `png_write_info`
  infoOk : Bool
  malloc : (size : Nat) → Option { memory : Bytes // memory.length = size }
  -- `png_write_row`, by the number of the row
  rowOk : Nat → Bool
  -- `png_write_end`
  endOk : Bool

/-- How a function ends otherwise than by a return. -/
inductive Abort where
  -- `qrcodegen::data_too_long`
  | dataTooLong
  -- a signed overflow, or a null pointer followed
  | undefined
  deriving DecidableEq

/-- A return: the result, the disk, and what was printed with its code. -/
structure Export where
  ok : Bool
  disk : Disk
  printed : List (Bytes × Nat)

/-- The product of two `int`. -/
def mulInt (a b : Int) : Except Abort Int :=
  if -2147483648 ≤ a * b ∧ a * b ≤ 2147483647 then .ok (a * b) else .error .undefined

/-- The rows of the image, drawn into a fresh buffer. -/
def rowsOf (env : Env) (qr : Symbol) (multiplicator side : Int) :
    Except Abort (List Bytes) := do
  let size ← mulInt (← mulInt 3 multiplicator) qr.size
  match env.malloc (size % 18446744073709551616).toNat with
  | some row => pure (drawRows qr multiplicator.toNat side.toNat row)
  | none => if 0 < side then throw .undefined else pure []

/-- The rows that libpng takes. -/
def taken (env : Env) (rows : List Bytes) : List Bytes :=
  rows.take ((List.range rows.length).takeWhile env.rowOk).length

/-- `QR::write_to_png` -/
def writeToPng (env : Env) (filename : Bytes) (qr : Symbol) (multiplicator : Int)
    (disk : Disk) : Except Abort Export := do
  if !env.opens then
    return ⟨false, disk,
      [(ascii "Could not open file" ++ filename ++ ascii "for writing", 1)]⟩
  -- opened with "wb"
  let name := untilZero filename
  let file (content : Content) : Disk := Function.update disk name (some content)
  if !env.writeStruct then
    return ⟨false, file (.bytes []), [(ascii "Could not allocate write struct", 1)]⟩
  if !env.infoStruct then
    return ⟨false, file (.bytes []), [(ascii "Could not allocate info struct", 1)]⟩
  let failed := [(ascii "Error during png creation", 1)]
  let side ← mulInt qr.size multiplicator
  if !(env.headerOk side side && env.infoOk) then
    return ⟨false, file (.bytes []), failed⟩
  let rows ← rowsOf env qr multiplicator side
  if (taken env rows).length < rows.length then
    return ⟨false, file (.png side side (taken env rows) false), failed⟩
  if !env.endOk then
    return ⟨false, file (.png side side rows false), failed⟩
  return ⟨true, file (.png side side rows true), []⟩

/-! ## How it ends -/

/-- A call behind `fopen` fails, and that is what the file then holds. -/
inductive Fails (env : Env) (qr : Symbol) (multiplicator : Int) : Content → Prop where
  | writeStruct : env.writeStruct = false → Fails env qr multiplicator (.bytes [])
  | infoStruct : env.writeStruct = true → env.infoStruct = false →
      Fails env qr multiplicator (.bytes [])
  | header {side : Int} : env.writeStruct = true → env.infoStruct = true →
      mulInt qr.size multiplicator = .ok side →
      (env.headerOk side side && env.infoOk) = false →
      Fails env qr multiplicator (.bytes [])
  | row {side : Int} {rows : List Bytes} : env.writeStruct = true → env.infoStruct = true →
      mulInt qr.size multiplicator = .ok side →
      (env.headerOk side side && env.infoOk) = true →
      rowsOf env qr multiplicator side = .ok rows →
      (taken env rows).length < rows.length →
      Fails env qr multiplicator (.png side side (taken env rows) false)
  | finish {side : Int} {rows : List Bytes} : env.writeStruct = true →
      env.infoStruct = true → mulInt qr.size multiplicator = .ok side →
      (env.headerOk side side && env.infoOk) = true →
      rowsOf env qr multiplicator side = .ok rows →
      ¬ (taken env rows).length < rows.length → env.endOk = false →
      Fails env qr multiplicator (.png side side rows false)

/-- No call of libpng fails, for an image of this side. -/
structure Env.Unfailing (env : Env) (side : Int) : Prop where
  writeStruct : env.writeStruct = true
  infoStruct : env.infoStruct = true
  header : env.headerOk side side = true
  info : env.infoOk = true
  rows : ∀ i < side.toNat, env.rowOk i = true
  finish : env.endOk = true

/-! ## A finished image -/

section Finished

variable {env : Env} {filename : Bytes} {qr : Symbol} {m : Nat} {disk : Disk} {w : Export}

theorem mulInt_eq_ok {a b p : Int} (h : mulInt a b = .ok p) :
    p = a * b ∧ -2147483648 ≤ a * b ∧ a * b ≤ 2147483647 := by
  unfold mulInt at h
  split at h
  · next hrange =>
      cases h
      exact ⟨rfl, hrange⟩
  · cases h

theorem length_rowsOf {m side : Int} {rows : List Bytes}
    (h : rowsOf env qr m side = .ok rows) : rows.length = side.toNat := by
  unfold rowsOf at h
  obtain ⟨m3, -, h⟩ := bind_eq_ok.mp h
  obtain ⟨size, -, h⟩ := bind_eq_ok.mp h
  split at h
  · cases h
    exact length_drawRows ..
  · split at h
    · cases h
    · next hside =>
        cases h
        rw [List.length_nil, Int.toNat_of_nonpos (Int.not_lt.mp hside)]

/-- libpng takes all rows exactly when it takes each of them. -/
theorem taken_all_iff {rows : List Bytes} :
    ¬ (taken env rows).length < rows.length ↔ ∀ i < rows.length, env.rowOk i = true := by
  have hall : ((List.range rows.length).takeWhile env.rowOk) = List.range rows.length
      ↔ ∀ i < rows.length, env.rowOk i = true := by
    rw [List.takeWhile_eq_self_iff]
    exact forall_congr' fun i => by rw [List.mem_range]
  rw [← hall, taken, List.length_take, not_lt]
  constructor
  · intro h
    apply (List.takeWhile_prefix _).eq_of_length_le
    rw [List.length_range]
    omega
  · intro h
    rw [h, List.length_range, Nat.min_self]

/-- A return says how the calls before it went: the file could not be opened,
a later call failed, or none did and the image is finished. -/
theorem writeToPng_cases {m : Int} (h : writeToPng env filename qr m disk = .ok w) :
    (env.opens = false ∧ w.ok = false ∧ w.disk = disk)
      ∨ (env.opens = true ∧ w.ok = false ∧ ∃ content, Fails env qr m content
        ∧ w.disk = Function.update disk (untilZero filename) (some content))
      ∨ (env.opens = true ∧ w.ok = true ∧ env.Unfailing (qr.size * m) ∧ ∃ rows,
        rowsOf env qr m (qr.size * m) = .ok rows ∧ w.disk = Function.update disk
          (untilZero filename) (some (.png (qr.size * m) (qr.size * m) rows true))) := by
  unfold writeToPng at h
  dsimp only at h
  split at h
  · next hopens =>
      cases h
      exact .inl ⟨by simpa using hopens, rfl, rfl⟩
  next hopens =>
  have hopens : env.opens = true := by simpa using hopens
  right
  split at h
  · next hstruct =>
      cases h
      exact .inl ⟨hopens, rfl, _, .writeStruct (by simpa using hstruct), rfl⟩
  next hstruct =>
  have hstruct : env.writeStruct = true := by simpa using hstruct
  split at h
  · next hinfo =>
      cases h
      exact .inl ⟨hopens, rfl, _, .infoStruct hstruct (by simpa using hinfo), rfl⟩
  next hinfo =>
  have hinfo : env.infoStruct = true := by simpa using hinfo
  rcases bind_eq_ok.mp h with ⟨side, hside, h⟩
  split at h
  · next hheader =>
      cases h
      have hheader := (Bool.not_eq_true' _).mp hheader
      exact .inl ⟨hopens, rfl, _, .header hstruct hinfo hside hheader, rfl⟩
  next hheader =>
  have hheader : (env.headerOk side side && env.infoOk) = true := by simpa using hheader
  rcases bind_eq_ok.mp h with ⟨rows, hrows, h⟩
  split at h
  · next hrow =>
      cases h
      exact .inl ⟨hopens, rfl, _, .row hstruct hinfo hside hheader hrows hrow, rfl⟩
  next hrow =>
  split at h
  · next hend =>
      cases h
      have hend : env.endOk = false := by simpa using hend
      exact .inl ⟨hopens, rfl, _, .finish hstruct hinfo hside hheader hrows hrow hend, rfl⟩
  · next hend =>
      cases h
      rcases mulInt_eq_ok hside with ⟨rfl, -⟩
      rw [Bool.and_eq_true] at hheader
      have hrows' : ∀ i < (qr.size * m).toNat, env.rowOk i = true :=
        length_rowsOf hrows ▸ taken_all_iff.mp hrow
      have hend' : env.endOk = true := by simpa using hend
      exact .inr ⟨hopens, rfl, ⟨hstruct, hinfo, hheader.1, hheader.2, hrows', hend'⟩,
        rows, hrows, rfl⟩

/-- What a return of `true` says about the calls before it. -/
theorem writeToPng_true {m : Int} (h : writeToPng env filename qr m disk = .ok w)
    (hok : w.ok = true) :
    ∃ rows, rowsOf env qr m (qr.size * m) = .ok rows
      ∧ w.disk (untilZero filename)
        = some (.png (qr.size * m) (qr.size * m) rows true) := by
  rcases writeToPng_cases h with hnone | hfails | hworks
  · rw [hok] at hnone
    cases hnone.2.1
  · rw [hok] at hfails
    cases hfails.2.1
  · obtain ⟨-, -, -, rows, hrows, hdisk⟩ := hworks
    exact ⟨rows, hrows, by rw [hdisk, Function.update_self]⟩

/-- The buffer holds one row of the image. -/
theorem rowsOf_eq (hm : 1 ≤ m) {rows : List Bytes}
    (h : rowsOf env qr m (qr.size * m) = .ok rows) :
    ∃ memory : Bytes, memory.length = 3 * (qr.size * m)
      ∧ rows = drawRows qr m (qr.size * m) memory := by
  unfold rowsOf at h
  obtain ⟨m3, hm3, h⟩ := bind_eq_ok.mp h
  obtain ⟨rfl, -⟩ := mulInt_eq_ok hm3
  obtain ⟨size, hsize, h⟩ := bind_eq_ok.mp h
  obtain ⟨rfl, -, hlt⟩ := mulInt_eq_ok hsize
  have hnat : (3 * (m : Int) * qr.size % 18446744073709551616).toNat = 3 * (qr.size * m) := by
    have hcast : 3 * (m : Int) * qr.size = ((3 * (qr.size * m) : Nat) : Int) := by
      push_cast
      ring
    rw [hcast] at hlt ⊢
    rw [Int.emod_eq_of_lt (Int.natCast_nonneg _) (by omega), Int.toNat_natCast]
  have hpos : (0 : Int) < qr.size * m :=
    Int.mul_pos (by exact_mod_cast qr.size_pos) (by exact_mod_cast hm)
  split at h
  · next row _ =>
      cases h
      refine ⟨row, row.2.trans hnat, ?_⟩
      rw [Int.toNat_natCast, ← Int.natCast_mul, Int.toNat_natCast]
  · rw [if_pos hpos] at h
    cases h

/-- The environment in which every call for an image of this side goes well. -/
structure Env.Works (env : Env) (side : Int) : Prop where
  opens : env.opens = true
  writeStruct : env.writeStruct = true
  infoStruct : env.infoStruct = true
  headerOk : env.headerOk side side = true
  infoOk : env.infoOk = true
  malloc : ∀ size, (env.malloc size).isSome
  rowOk : ∀ i, env.rowOk i = true
  endOk : env.endOk = true

theorem mulInt_ok {a b : Int} (hlow : 0 ≤ a * b) (hhigh : a * b ≤ 2147483647) :
    mulInt a b = .ok (a * b) := if_pos ⟨by omega, hhigh⟩

theorem rowsOf_ok {m side m3 size : Int}
    {row : { memory : Bytes // memory.length = (size % 18446744073709551616).toNat }}
    (hm3 : mulInt 3 m = .ok m3) (hsize : mulInt m3 qr.size = .ok size)
    (hrow : env.malloc (size % 18446744073709551616).toNat = some row) :
    rowsOf env qr m side = .ok (drawRows qr m.toNat side.toNat row) := by
  simp only [rowsOf, hm3, hsize, bind, Except.bind]
  split
  · next row' hrow' =>
      cases hrow.symm.trans hrow'
      rfl
  · next hnone => cases hrow.symm.trans hnone

/-- **An image is written** when every call goes well and a row of it has
at most `INT_MAX` bytes. -/
theorem writeToPng_works (henv : env.Works (qr.size * m))
    (hrange : 3 * (qr.size * m) ≤ 2147483647) :
    ∃ w, writeToPng env filename qr m disk = .ok w ∧ w.ok = true := by
  have hside : (0 : Int) ≤ qr.size * m :=
    Int.mul_nonneg (Int.natCast_nonneg _) (Int.natCast_nonneg _)
  have hm3 : (3 : Int) * m ≤ 3 * (qr.size * m) := by
    have hle : m ≤ qr.size * m := Nat.le_mul_of_pos_left m qr.size_pos
    exact_mod_cast Nat.mul_le_mul_left 3 hle
  have hbytes : 3 * (m : Int) * qr.size = 3 * (qr.size * m) := by ring
  have hcast : (3 : Int) * (qr.size * m) ≤ 2147483647 := by exact_mod_cast hrange
  have hrows : ∃ rows, rowsOf env qr m (qr.size * m) = .ok rows := by
    obtain ⟨row, hrow⟩ := Option.isSome_iff_exists.mp
      (henv.malloc (3 * (m : Int) * qr.size % 18446744073709551616).toNat)
    exact ⟨_, rowsOf_ok (mulInt_ok (by omega) (by omega)) (mulInt_ok (by omega) (by omega))
      hrow⟩
  obtain ⟨rows, hrows⟩ := hrows
  refine ⟨⟨true, Function.update disk (untilZero filename)
    (some (.png (qr.size * m) (qr.size * m) rows true)), []⟩, ?_, rfl⟩
  simp only [writeToPng, mulInt_ok hside (by omega), bind, Except.bind]
  simp [henv.opens, henv.writeStruct, henv.infoStruct, henv.headerOk, henv.infoOk,
    henv.endOk, hrows, taken_all_iff.mpr fun i _ => henv.rowOk i, pure, Except.pure]

end Finished

/-- A `QR`. -/
structure QR where
  filename : Bytes
  size : Int
  text : Bytes
  overwriteExistingFile : Bool
  ecc : Ecc

/-- `to_png`, for a library that encodes texts. -/
def QR.toPng (q : QR) (env : Env) (encodeText : Bytes → Ecc → Option Symbol) (disk : Disk) :
    Except Abort Export := do
  if q.text.isEmpty then return ⟨false, disk, []⟩
  let exists_ := (disk (untilZero q.filename)).isSome && env.readable
  if !q.overwriteExistingFile && exists_ then return ⟨false, disk, []⟩
  match encodeText (untilZero q.text) q.ecc with
  | none => throw .dataTooLong
  | some qrCode => writeToPng env q.filename qrCode (q.size.tdiv qrCode.size) disk

/-- `image_size`, an `unsigned int`. -/
def QR.imageSize (q : QR) (qrData : Symbol) : Nat :=
  ((q.size.tdiv qrData.size * qrData.size) % 4294967296).toNat

/-- **The side of the image** that `to_png` writes is what `image_size` says. -/
theorem QR.toPng_imageSize {q : QR} {env : Env} {encodeText : Bytes → Ecc → Option Symbol}
    {disk : Disk} {w : Export} (hlow : 0 ≤ q.size) (hhigh : q.size ≤ 2147483647)
    (h : q.toPng env encodeText disk = .ok w) (hok : w.ok = true) :
    ∃ qrCode rows, encodeText (untilZero q.text) q.ecc = some qrCode
      ∧ w.disk (untilZero q.filename)
        = some (.png (q.imageSize qrCode) (q.imageSize qrCode) rows true) := by
  unfold toPng at h
  dsimp only at h
  split at h
  · cases h
    cases hok
  split at h
  · cases h
    cases hok
  split at h
  · cases h
  next qrCode hcode =>
  obtain ⟨rows, -, hdisk⟩ := writeToPng_true h hok
  have hle := Int.ediv_mul_le q.size (b := qrCode.size)
    (by exact_mod_cast Nat.ne_of_gt qrCode.size_pos)
  have hnonneg : 0 ≤ q.size / qrCode.size * qrCode.size :=
    Int.mul_nonneg (Int.ediv_nonneg hlow (Int.natCast_nonneg _)) (Int.natCast_nonneg _)
  have hside : (q.imageSize qrCode : Int) = qrCode.size * q.size.tdiv qrCode.size := by
    rw [imageSize, Int.tdiv_eq_ediv_of_nonneg hlow, Int.emod_eq_of_lt hnonneg (by omega),
      Int.toNat_of_nonneg hnonneg, Int.mul_comm]
  exact ⟨qrCode, rows, hcode, hside ▸ hdisk⟩

/-! ## The image against the symbol -/

theorem writeToPng_shows {env : Env} {filename : Bytes} {qr : Symbol} {m : Nat}
    {disk : Disk} {w : Export} (hm : 1 ≤ m)
    (h : writeToPng env filename qr m disk = .ok w) (hok : w.ok = true) :
    ∃ rows, w.disk (untilZero filename)
        = some (.png (qr.size * m) (qr.size * m) rows true)
      ∧ Shows rows (qr.size * m) (qr.size * m) (qr.drawn m) := by
  obtain ⟨rows, hrows, hdisk⟩ := writeToPng_true h hok
  obtain ⟨memory, hmemory, rfl⟩ := rowsOf_eq hm hrows
  exact ⟨_, hdisk, drawRows_shows hmemory⟩

theorem rows_unique {content : Option Content} {side side' : Int} {rows rows' : List Bytes}
    (h : content = some (.png side side rows true))
    (h' : content = some (.png side' side' rows' true)) : rows = rows' := by
  cases h.symm.trans h'
  rfl

/-- **When the image is the magnified symbol**: of every image that is
written, exactly when all modules of the symbol have one colour. -/
theorem raster_exact_iff (env : Env) (filename : Bytes) (qr : Symbol) (m : Nat)
    (disk : Disk) (w : Export) (hm : 1 ≤ m)
    (h : writeToPng env filename qr m disk = .ok w) (hok : w.ok = true) :
    ∃ rows, w.disk (untilZero filename)
        = some (.png (qr.size * m) (qr.size * m) rows true)
      ∧ (Shows rows (qr.size * m) (qr.size * m) (qr.magnified m) ↔ qr.OneColour) := by
  obtain ⟨rows, hdisk, hshows⟩ := writeToPng_shows hm h hok
  refine ⟨rows, hdisk, ?_⟩
  rw [shows_iff hshows]
  exact drawn_eq_magnified_iff hm

/-- A library that never fails. -/
def working : Env where
  readable := true
  opens := true
  writeStruct := true
  infoStruct := true
  headerOk _ _ := true
  infoOk := true
  malloc size := some ⟨List.replicate size 0, List.length_replicate⟩
  rowOk _ := true
  endOk := true

theorem working_works (side : Int) : working.Works side :=
  ⟨rfl, rfl, rfl, rfl, rfl, fun _ => rfl, fun _ => rfl, rfl⟩

/-- A symbol of version 1, as far as its first finder pattern goes. -/
def finder : Symbol where
  size := 21
  size_pos := by decide
  dark x y := x ≤ 6 && y ≤ 6
    && (x == 0 || x == 6 || y == 0 || y == 6 || (2 ≤ x && x ≤ 4 && 2 ≤ y && y ≤ 4))

theorem raster_exact_finder :
    ∃ w, (1 ≤ 4 ∧ writeToPng working (ascii "qr.png") finder (4 : Nat) (fun _ => none) = .ok w
        ∧ w.ok = true)
      ∧ ∃ rows, w.disk (untilZero (ascii "qr.png")) = some (.png 84 84 rows true)
        ∧ ¬ Shows rows 84 84 (finder.magnified 4) := by
  have hworks : ∃ w, writeToPng working (ascii "qr.png") finder (4 : Nat) (fun _ => none)
      = .ok w ∧ w.ok = true := writeToPng_works (working_works _) (by decide)
  obtain ⟨w, hw, hok⟩ := hworks
  obtain ⟨rows, hdisk, hshows⟩ := raster_exact_iff working (ascii "qr.png") finder 4 _ w
    (by decide) hw hok
  refine ⟨w, ⟨by decide, hw, hok⟩, rows, hdisk, ?_⟩
  rw [show (84 : Nat) = finder.size * 4 from rfl, hshows]
  intro hone
  exact absurd (hone 1 (by decide) 1 (by decide)) (by decide)

/-- The first light module of a finder pattern begins with a dark pixel. -/
theorem raster_finder :
    ¬ ∀ (env : Env) (filename : Bytes) (qr : Symbol) (m : Nat) (disk : Disk) (w : Export),
      1 ≤ m → writeToPng env filename qr m disk = .ok w → w.ok = true →
      ∃ rows, w.disk (untilZero filename)
          = some (.png (qr.size * m) (qr.size * m) rows true)
        ∧ Shows rows (qr.size * m) (qr.size * m) (qr.magnified m) := by
  intro hall
  have hworks : ∃ w, writeToPng working (ascii "qr.png") finder (4 : Nat) (fun _ => none)
      = .ok w ∧ w.ok = true := writeToPng_works (working_works _) (by decide)
  obtain ⟨w, hw, hok⟩ := hworks
  obtain ⟨rows, hdisk, hshows⟩ := hall _ _ _ _ _ w (by decide) hw hok
  obtain ⟨rows', hdisk', hdrawn⟩ := writeToPng_shows (by decide) hw hok
  obtain rfl := rows_unique hdisk hdisk'
  have hpixel := (shows_iff hdrawn).mp hshows 4 (by decide) 4 (by decide)
  exact absurd hpixel (by decide)

end Neroshop.Qr
