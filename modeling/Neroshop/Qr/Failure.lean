import Neroshop.Qr.Png

/-!
# QR — the export that fails

What a call of `to_png` that answers `false` leaves in the file: `fopen` has
emptied it before the first of the later calls can fail.

* `QR.Refuses` and `Env.Unfailing`: the calls that cannot lose anything.
* `QR.spares_kept`: they spare the file, whatever it holds; of the others, those
  that return have failed, and they leave the file as it was only if it held one
  content already, the same for every disk.
-/

namespace Neroshop.Qr

open Lib.CStr

section Write

variable {env : Env} {filename : Bytes} {qr : Symbol} {m : Int} {disk : Disk} {w : Export}
  {content : Content}

theorem writeToPng_not_opened (hopens : env.opens = false)
    (h : writeToPng env filename qr m disk = .ok w) : w.disk = disk := by
  rcases writeToPng_cases h with hnone | hfails | hworks
  · exact hnone.2.2
  · rw [hopens] at hfails
    cases hfails.1
  · rw [hopens] at hworks
    cases hworks.1

theorem fails_of_writeToPng (hopens : env.opens = true)
    (h : writeToPng env filename qr m disk = .ok w) (hok : w.ok = false) :
    ∃ content, Fails env qr m content
      ∧ w.disk = Function.update disk (untilZero filename) (some content) := by
  rcases writeToPng_cases h with hnone | hfails | hworks
  · rw [hopens] at hnone
    cases hnone.1
  · exact hfails.2.2
  · rw [hok] at hworks
    cases hworks.2.1

theorem writeToPng_of_fails (filename : Bytes) (disk : Disk) (hopens : env.opens = true)
    (hf : Fails env qr m content) :
    ∃ w, writeToPng env filename qr m disk = .ok w ∧ w.ok = false
      ∧ w.disk = Function.update disk (untilZero filename) (some content) := by
  unfold writeToPng
  cases hf with
  | writeStruct hstruct =>
      simp only [hopens, hstruct]
      exact ⟨_, rfl, rfl, rfl⟩
  | infoStruct hstruct hinfo =>
      simp only [hopens, hstruct, hinfo]
      exact ⟨_, rfl, rfl, rfl⟩
  | header hstruct hinfo hside hheader =>
      simp only [hopens, hstruct, hinfo, hside, bind, Except.bind, hheader]
      exact ⟨_, rfl, rfl, rfl⟩
  | row hstruct hinfo hside hheader hrows hrow =>
      simp only [hopens, hstruct, hinfo, hside, bind, Except.bind, hheader, hrows,
        if_pos hrow]
      exact ⟨_, rfl, rfl, rfl⟩
  | finish hstruct hinfo hside hheader hrows hrow hend =>
      simp only [hopens, hstruct, hinfo, hside, bind, Except.bind, hheader, hrows,
        if_neg hrow, hend]
      exact ⟨_, rfl, rfl, rfl⟩

theorem not_fails_of_unfailing (henv : env.Unfailing (qr.size * m)) :
    ¬ Fails env qr m content := by
  intro hf
  cases hf with
  | writeStruct hstruct => simp [henv.writeStruct] at hstruct
  | infoStruct _ hinfo => simp [henv.infoStruct] at hinfo
  | header _ _ hside hheader =>
      obtain ⟨rfl, -⟩ := mulInt_eq_ok hside
      simp [henv.header, henv.info] at hheader
  | row _ _ hside _ hrows hrow =>
      obtain ⟨rfl, -⟩ := mulInt_eq_ok hside
      exact taken_all_iff.mpr (length_rowsOf hrows ▸ henv.rows) hrow
  | finish _ _ _ _ _ _ hend => simp [henv.finish] at hend

end Write

/-! ## The file after a return of `false` -/

/-- When `to_png` returns `false`, the file holds what it held before. -/
def QR.Spares (q : QR) (env : Env) (encodeText : Bytes → Ecc → Option Symbol)
    (disk : Disk) : Prop :=
  ∀ w, q.toPng env encodeText disk = .ok w → w.ok = false →
    w.disk (untilZero q.filename) = disk (untilZero q.filename)

/-- Whatever the file holds, if it is there, a failed export leaves it alone. -/
def QR.SparesAll (q : QR) (env : Env) (encodeText : Bytes → Ecc → Option Symbol)
    (disk : Disk) : Prop :=
  ∀ disk' : Disk,
    (disk' (untilZero q.filename)).isSome = (disk (untilZero q.filename)).isSome →
      q.Spares env encodeText disk'

/-- The file is there, and is not to be overwritten. -/
def QR.Refuses (q : QR) (env : Env) (disk : Disk) : Prop :=
  q.overwriteExistingFile = false ∧ (disk (untilZero q.filename)).isSome
    ∧ env.readable = true

section Spares

variable {q : QR} {env : Env} {encodeText : Bytes → Ecc → Option Symbol} {disk : Disk}
  {qrCode : Symbol}

theorem QR.toPng_refuses (htext : q.text ≠ []) (h : q.Refuses env disk) :
    q.toPng env encodeText disk = .ok ⟨false, disk, []⟩ := by
  rcases h with ⟨hoverwrite, hexists, hreadable⟩
  have htext : q.text.isEmpty = false := by simpa using htext
  simp only [toPng, htext, hoverwrite, hexists, hreadable]
  rfl

theorem QR.toPng_writes (htext : q.text ≠ []) (h : ¬ q.Refuses env disk)
    (hcode : encodeText (untilZero q.text) q.ecc = some qrCode) :
    q.toPng env encodeText disk =
      writeToPng env q.filename qrCode (q.size.tdiv qrCode.size) disk := by
  have htext : q.text.isEmpty = false := by simpa using htext
  have hwrites : (!q.overwriteExistingFile
      && ((disk (untilZero q.filename)).isSome && env.readable)) = false := by
    simpa [Refuses] using h
  simp only [toPng, htext, hwrites, hcode]
  rfl

/-- The export is refused, cannot open the file, or no call of libpng fails. -/
def QR.Kept (q : QR) (env : Env) (disk : Disk) (qrCode : Symbol) : Prop :=
  q.Refuses env disk ∨ env.opens = false
    ∨ env.Unfailing (qrCode.size * q.size.tdiv qrCode.size)

theorem QR.spares_of_kept (htext : q.text ≠ [])
    (hcode : encodeText (untilZero q.text) q.ecc = some qrCode)
    (h : q.Kept env disk qrCode) : q.Spares env encodeText disk := by
  intro w hw hok
  by_cases hrefuses : q.Refuses env disk
  · rw [q.toPng_refuses htext hrefuses] at hw
    cases hw
    rfl
  · rw [q.toPng_writes htext hrefuses hcode] at hw
    rcases h.resolve_left hrefuses with hopens | henv
    · rw [writeToPng_not_opened hopens hw]
    · cases hopens : env.opens with
      | false => rw [writeToPng_not_opened hopens hw]
      | true =>
          obtain ⟨content, hf, -⟩ := fails_of_writeToPng hopens hw hok
          exact absurd hf (not_fails_of_unfailing henv)

/-- An export that is not kept, and returns, has failed behind `fopen`. -/
theorem QR.fails_of_not_kept (htext : q.text ≠ [])
    (hcode : encodeText (untilZero q.text) q.ecc = some qrCode)
    (h : ¬ q.Kept env disk qrCode) {w : Export} (hw : q.toPng env encodeText disk = .ok w) :
    env.opens = true ∧ w.ok = false
      ∧ ∃ content, Fails env qrCode (q.size.tdiv qrCode.size) content
        ∧ w.disk (untilZero q.filename) = some content := by
  unfold QR.Kept at h
  rw [not_or, not_or] at h
  obtain ⟨hrefuses, hopens, henv⟩ := h
  rw [q.toPng_writes htext hrefuses hcode] at hw
  rcases writeToPng_cases hw with hnone | ⟨hopened, hok, content, hf, hdisk⟩ | hworks
  · exact absurd hnone.1 hopens
  · exact ⟨hopened, hok, content, hf, by rw [hdisk, Function.update_self]⟩
  · exact absurd hworks.2.2.1 henv

theorem QR.kept_congr {disk' : Disk}
    (hsame : (disk' (untilZero q.filename)).isSome = (disk (untilZero q.filename)).isSome) :
    q.Kept env disk' qrCode ↔ q.Kept env disk qrCode := by
  unfold QR.Kept QR.Refuses
  rw [hsame]

/-- What such a failure leaves, it leaves on every disk. -/
theorem QR.toPng_of_fails (htext : q.text ≠ [])
    (hcode : encodeText (untilZero q.text) q.ecc = some qrCode)
    (h : ¬ q.Kept env disk qrCode) {content : Content}
    (hf : Fails env qrCode (q.size.tdiv qrCode.size) content) :
    ∃ w, q.toPng env encodeText disk = .ok w ∧ w.ok = false
      ∧ w.disk (untilZero q.filename) = some content := by
  unfold QR.Kept at h
  rw [not_or, not_or, Bool.not_eq_false] at h
  obtain ⟨hrefuses, hopens, -⟩ := h
  obtain ⟨w, hw, hok, hdisk⟩ := writeToPng_of_fails q.filename disk hopens hf
  rw [q.toPng_writes htext hrefuses hcode]
  exact ⟨w, hw, hok, by rw [hdisk, Function.update_self]⟩

/-- Beside one content there is always another. -/
theorem exists_other (disk : Disk) (name : Bytes) (content : Content) :
    ∃ disk' : Disk, (disk' name).isSome = (disk name).isSome ∧ disk' name ≠ some content := by
  obtain ⟨other, hother⟩ : ∃ other : Content, other ≠ content := by
    by_cases hempty : content = .bytes []
    · exact ⟨.bytes [0], by rw [hempty]; decide⟩
    · exact ⟨.bytes [], Ne.symm hempty⟩
  refine ⟨fun name => (disk name).map fun _ => other, Option.isSome_map .., ?_⟩
  show (disk name).map (fun _ => other) ≠ some content
  cases disk name with
  | none => exact (Option.some_ne_none content).symm
  | some _ => exact fun h => hother (Option.some.inj h)

theorem QR.sparesAll_iff (htext : q.text ≠ [])
    (hcode : encodeText (untilZero q.text) q.ecc = some qrCode) :
    q.SparesAll env encodeText disk
      ↔ q.Kept env disk qrCode ∨ ∀ w, q.toPng env encodeText disk ≠ .ok w := by
  constructor
  · intro hall
    by_contra hlost
    rw [not_or, not_forall] at hlost
    obtain ⟨hkept, w, hw⟩ := hlost
    obtain ⟨-, -, content, hf, -⟩ :=
      QR.fails_of_not_kept htext hcode hkept (not_not.mp hw)
    obtain ⟨disk', hsame, hother⟩ := exists_other disk (untilZero q.filename) content
    obtain ⟨w', hw', hok, hdisk⟩ :=
      QR.toPng_of_fails htext hcode (mt (QR.kept_congr hsame).mp hkept) hf
    exact hother ((hall disk' hsame w' hw' hok).symm.trans hdisk)
  · intro hkept disk' hsame w hw hok
    by_cases hkept' : q.Kept env disk' qrCode
    · exact QR.spares_of_kept htext hcode hkept' w hw hok
    · -- it fails on this disk too, and returns
      have hnot := mt (QR.kept_congr hsame).mpr hkept'
      obtain ⟨-, -, content, hf, -⟩ := QR.fails_of_not_kept htext hcode hkept' hw
      obtain ⟨w', hw', -⟩ := QR.toPng_of_fails htext hcode hnot hf
      exact absurd hw' (hkept.resolve_left hnot w')

/-- **When a failed export leaves the file alone**: it is refused or cannot
open the file, or no call of libpng fails. An export that returns spares the
file whatever it holds exactly then. Otherwise it has failed, and of all that
the file can have held before, one content is kept, the same whatever the disk
is. -/
theorem QR.spares_kept (q : QR) (env : Env) (encodeText : Bytes → Ecc → Option Symbol)
    (qrCode : Symbol) (htext : q.text ≠ [])
    (hcode : encodeText (untilZero q.text) q.ecc = some qrCode) :
    (∀ disk, q.Kept env disk qrCode → q.Spares env encodeText disk)
      ∧ (∀ disk, q.SparesAll env encodeText disk
        ↔ q.Kept env disk qrCode ∨ ∀ w, q.toPng env encodeText disk ≠ .ok w)
      ∧ ∃ content, ∀ disk w, ¬ q.Kept env disk qrCode →
        q.toPng env encodeText disk = .ok w →
        w.ok = false
          ∧ (q.Spares env encodeText disk ↔ disk (untilZero q.filename) = some content) := by
  refine ⟨fun disk hkept => QR.spares_of_kept htext hcode hkept,
    fun disk => QR.sparesAll_iff htext hcode, ?_⟩
  by_cases hfails : ∃ content, Fails env qrCode (q.size.tdiv qrCode.size) content
  · obtain ⟨content, hf⟩ := hfails
    refine ⟨content, ?_⟩
    intro disk w hkept hw
    obtain ⟨w', hw', hok, hdisk⟩ := QR.toPng_of_fails htext hcode hkept hf
    obtain rfl : w = w' := Except.ok.inj (hw.symm.trans hw')
    refine ⟨hok, ?_⟩
    constructor
    · intro hspares
      rw [← hspares w hw hok, hdisk]
    · intro hsame w' hw' _
      obtain rfl : w = w' := Except.ok.inj (hw.symm.trans hw')
      rw [hdisk, hsame]
  · refine ⟨.bytes [], ?_⟩
    intro disk w hkept hw
    obtain ⟨-, -, content, hf, -⟩ := QR.fails_of_not_kept htext hcode hkept hw
    exact absurd ⟨content, hf⟩ hfails

end Spares

/-- libpng with the limits that it has of itself on the sides of an image. -/
def limited : Env :=
  { working with
    headerOk := fun width height =>
      0 < width && width ≤ 1000000 && 0 < height && height ≤ 1000000 }

/-- The payment code of an earlier export. -/
def earlier : Disk := fun name =>
  if name = ascii "payment.png" then some (.png 1 1 [[0, 0, 0]] true) else none

/-- The earlier image is not to be overwritten, and with permission it is what
one content at most would outlast. -/
theorem spares_refused :
    (QR.mk (ascii "payment.png") 20 (ascii "monero:") false .low).Spares limited
        (fun _ _ => some finder) earlier
      ∧ ∃ content, ∀ disk,
        (QR.mk (ascii "payment.png") 20 (ascii "monero:") true .low).Spares limited
          (fun _ _ => some finder) disk → disk (ascii "payment.png") = some content := by
  refine ⟨(QR.spares_kept _ limited (fun _ _ => some finder) finder (by decide) rfl).1 earlier
    (.inl ⟨rfl, rfl, rfl⟩), ?_⟩
  obtain ⟨content, hcontent⟩ := (QR.spares_kept
    (QR.mk (ascii "payment.png") 20 (ascii "monero:") true .low) limited
    (fun _ _ => some finder) finder (by decide) rfl).2.2
  refine ⟨content, ?_⟩
  intro disk hspares
  have hkept : ¬ (QR.mk (ascii "payment.png") 20 (ascii "monero:") true .low).Kept limited
      disk finder := by
    rintro (hrefuses | hopens | henv)
    · cases hrefuses.1
    · cases hopens
    · exact absurd henv.header (by decide)
  exact ((hcontent disk _ hkept rfl).2).mp hspares

/-- A side that is smaller than that of the symbol makes an image of no width:
the earlier image is gone. -/
theorem not_spares_small :
    ¬ (QR.mk (ascii "payment.png") 20 (ascii "monero:") true .low).Spares limited
      (fun _ _ => some finder) earlier := by
  intro h
  have hlost := h ⟨false, Function.update earlier (ascii "payment.png") (some (.bytes [])),
    [(ascii "Error during png creation", 1)]⟩ rfl rfl
  have hname : untilZero (ascii "payment.png") = ascii "payment.png" := by decide
  have hempty : Function.update earlier (ascii "payment.png") (some (.bytes []))
      (ascii "payment.png") = some (.bytes []) := Function.update_self ..
  rw [hname] at hlost
  exact absurd (hempty.symm.trans hlost) (by decide)

end Neroshop.Qr
