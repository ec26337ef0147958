import Neroshop.Lib.Handles
import Neroshop.Qr.Png

/-!
# QR — the objects of an export

`write_to_png` once more, with the file and the objects of libpng that it
opens and frees. Nothing frees the info struct, and an error of libpng jumps
over the end of the function.

`run_open`: over whole runs, no object is used after its free, each file is closed,
and what is live at the end is what the exits have left.
-/

namespace Neroshop.Qr.Resources

open Lib Lib.CStr Lib.Handles Lib.Runs
open Lib.EState (bind_eq_ok)

/-- The objects that an export allocates. -/
inductive Object where
  -- `FILE`
  | file
  -- the write struct
  | png
  -- the info struct
  | info
  -- the buffer for one row
  | row
  deriving DecidableEq, Repr

/-- A program over these objects. -/
abbrev Prog := Handles.Prog Object Abort

/-- `png_free_data` frees what the info struct holds, and nothing of a null one. -/
def pngFreeData (png : Nat) (info : Option Nat) : Prog Unit := do
  use png
  match info with
  | none => pure ()
  | some info => use info

/-- The return of `setjmp` after an error. -/
def failed (fp png info : Nat) : Prog Bool := do
  free fp
  pngFreeData png (some info)
  free png
  pure false

/-- `free(row)`, of a buffer that is there. -/
def freeRow : Option Nat → Prog Unit
  | none => pure ()
  | some row => free row

/-- The rows; it answers the buffer and the rows that libpng was given. -/
def writeRows (env : Env) (png : Nat) (qr : Symbol) (multiplicator side : Int) :
    Prog (Option Nat × List Bytes) := do
  match mulInt 3 multiplicator with
  | .error e => stop e
  | .ok m3 =>
  match mulInt m3 qr.size with
  | .error e => stop e
  | .ok size =>
  match env.malloc (size % 18446744073709551616).toNat with
  | none => if 0 < side then stop .undefined else pure (none, [])
  | some memory =>
      let row ← new .row
      use png
      use row
      pure (some row, drawRows qr multiplicator.toNat side.toNat memory)

/-- `write_to_png` -/
def writeToPng (env : Env) (qr : Symbol) (multiplicator : Int) : Prog Bool := do
  if !env.opens then pure false
  else
    let fp ← new .file
    if !env.writeStruct then
      free fp
      pure false
    else
      let png ← new .png
      use png
      if !env.infoStruct then
        free fp
        -- the write struct stays
        pngFreeData png none
        pure false
      else
        let info ← new .info
        use png
        use fp
        match mulInt qr.size multiplicator with
        | .error e => stop e
        | .ok side =>
        use info
        if !(env.headerOk side side && env.infoOk) then failed fp png info
        else
          let (row, rows) ← writeRows env png qr multiplicator side
          -- the row is not freed on these two ways
          if (taken env rows).length < rows.length then failed fp png info
          else if !env.endOk then failed fp png info
          else
            free fp
            pngFreeData png (some info)
            free png
            freeRow row
            pure true

/-- `to_png` -/
def toPng (q : QR) (env : Env) (encodeText : Bytes → Ecc → Option Symbol) (disk : Disk) :
    Prog Bool := do
  if q.text.isEmpty then pure false
  else if !q.overwriteExistingFile && (disk (untilZero q.filename)).isSome && env.readable then
    pure false
  else
    match encodeText (untilZero q.text) q.ecc with
    | none => stop .dataTooLong
    | some qrCode => writeToPng env qrCode (q.size.tdiv qrCode.size)

/-! ## What stays behind -/

/-- The buffer for one row, where there is memory for it. -/
def rowBuffer (env : Env) (qr : Symbol) (multiplicator : Int) : List Object :=
  if (env.malloc (3 * multiplicator * qr.size % 18446744073709551616).toNat).isSome then [.row]
  else []

/-- What an export leaves from the header on. -/
def imageLeak (env : Env) (qr : Symbol) (multiplicator : Int) (rows : List Bytes) :
    List Object :=
  if (taken env rows).length < rows.length || !env.endOk then
    .info :: rowBuffer env qr multiplicator
  else [.info]

/-- The objects that a `writeToPng` which returns leaves. -/
def pngLeak (env : Env) (qr : Symbol) (multiplicator : Int) : List Object :=
  if !env.opens || !env.writeStruct then []
  else if !env.infoStruct then [.png]
  else
    match mulInt qr.size multiplicator with
    | .error _ => []
    | .ok side =>
        if !(env.headerOk side side && env.infoOk) then [.info]
        else
          match rowsOf env qr multiplicator side with
          | .error _ => []
          | .ok rows => imageLeak env qr multiplicator rows

section Owned

variable {env : Env} {qr : Symbol} {m side : Int} {own : List (Nat × Object)}
  {fp png info : Nat}

theorem owns_pngFreeData {Q : Unit → List (Nat × Object) → Prop} {E : Abort → Prop}
    {info : Option Nat} (hpng : png ∈ own.map Prod.fst)
    (hinfo : ∀ i ∈ info, i ∈ own.map Prod.fst) (h : Q () own) :
    Owns own (pngFreeData png info) Q E := by
  unfold pngFreeData
  refine .use_bind hpng ?_
  cases info with
  | none => exact .pure h
  | some i => exact .use (hinfo i rfl) h

theorem owns_failed (rest : List (Nat × Object)) {E : Abort → Prop} :
    Owns (own ++ (fp, .file) :: (png, .png) :: (info, .info) :: rest) (failed fp png info)
      (fun a own' => a = false ∧ own' = own ++ (info, .info) :: rest) E := by
  unfold failed
  refine .free_bind (.bind (owns_pngFreeData (Q := fun _ own' =>
    own' = own ++ (png, .png) :: (info, .info) :: rest) (by simp) (by simp) rfl) ?_)
  rintro _ _ rfl
  exact .free_bind (.pure ⟨rfl, rfl⟩)

theorem owns_writeRows (hpng : png ∈ own.map Prod.fst) :
    Owns own (writeRows env png qr m side)
      (fun a own' => rowsOf env qr m side = .ok a.2
        ∧ own' = own ++ a.1.toList.map (·, Object.row)
        ∧ rowBuffer env qr m = a.1.toList.map fun _ => .row)
      (fun e => rowsOf env qr m side = .error e) := by
  unfold writeRows rowsOf
  cases hm3 : mulInt 3 m with
  | error e => exact .stop (by simp only [bind, Except.bind])
  | ok m3 =>
  simp only
  cases hsize : mulInt m3 qr.size with
  | error e => exact .stop (by simp only [bind, Except.bind, hsize])
  | ok size =>
  obtain ⟨rfl, -⟩ := mulInt_eq_ok hm3
  obtain ⟨rfl, -⟩ := mulInt_eq_ok hsize
  simp only [bind, Except.bind, hsize]
  unfold rowBuffer
  cases hmemory : env.malloc (3 * m * qr.size % 18446744073709551616).toNat with
  | none =>
      by_cases hside : 0 < side
      · simp only [if_pos hside]
        exact .stop rfl
      · simp only [if_neg hside]
        exact .pure ⟨rfl, by simp, by simp⟩
  | some memory =>
      simp only
      refine .new_bind fun row => .use_bind (by simp [hpng]) (.use_bind (by simp) ?_)
      exact .pure ⟨rfl, by simp, by simp⟩

/-- The result is the one of the function without its objects. -/
def Answers (r : Except Abort Export) (a : Bool) : Prop :=
  ∃ w, r = .ok w ∧ w.ok = a

theorem ok_bind {α β : Type} (a : α) (f : α → Except Abort β) :
    (Except.ok a >>= f) = f a := rfl

theorem leaves_row (own : List (Nat × Object)) (info : Nat) (row : Option Nat) :
    Leaves own (.info :: row.toList.map fun _ => Object.row)
      (own ++ (info, .info) :: row.toList.map (·, Object.row)) := by
  refine ⟨_, rfl, ?_⟩
  rw [List.map_cons, List.map_map]
  rfl

theorem owns_writeToPng {filename : Bytes} {disk : Disk} :
    Owns own (writeToPng env qr m)
      (fun a own' => Answers (Qr.writeToPng env filename qr m disk) a
        ∧ Leaves own (pngLeak env qr m) own')
      (fun e => Qr.writeToPng env filename qr m disk = .error e) := by
  unfold writeToPng Qr.writeToPng pngLeak
  cases env.opens with
  | false => exact .pure ⟨⟨_, rfl, rfl⟩, leaves_nil own⟩
  | true =>
  refine .new_bind fun fp => ?_
  cases env.writeStruct with
  | false => exact Owns.free_last (.pure ⟨⟨_, rfl, rfl⟩, leaves_nil own⟩)
  | true =>
  refine .new_bind fun png => .use_bind (mem_last _ png Object.png) ?_
  rw [List.append_assoc]
  cases env.infoStruct with
  | false =>
      refine .free_bind (.bind (owns_pngFreeData (Q := fun _ own' =>
        own' = own ++ [(png, Object.png)]) (by simp) nofun rfl) ?_)
      rintro _ _ rfl
      exact .pure ⟨⟨_, rfl, rfl⟩, leaves_one own png .png⟩
  | true =>
  refine .new_bind fun info => .use_bind (by simp) (.use_bind (by simp) ?_)
  rw [List.append_assoc]
  cases hside : mulInt qr.size m with
  | error e => exact .stop rfl
  | ok side =>
  refine .use_bind (by simp) ?_
  simp only [ok_bind]
  cases env.headerOk side side && env.infoOk with
  | false =>
      refine (owns_failed []).mono ?_ fun _ => id
      rintro _ _ ⟨rfl, rfl⟩
      exact ⟨⟨_, rfl, rfl⟩, leaves_one own info .info⟩
  | true =>
  refine .bind (.mono (owns_writeRows (by simp)) (fun _ _ => id) ?_) ?_
  · intro e he
    rw [he]
    rfl
  rintro ⟨row, rows⟩ _ ⟨hrows, rfl, hbuffer⟩
  simp only [hrows, ok_bind, imageLeak, hbuffer]
  rw [List.append_assoc]
  by_cases htaken : (taken env rows).length < rows.length
  · simp only [htaken]
    refine (owns_failed _).mono ?_ fun _ => id
    rintro _ _ ⟨rfl, rfl⟩
    exact ⟨⟨_, rfl, rfl⟩, leaves_row own info row⟩
  simp only [htaken]
  cases env.endOk with
  | false =>
      refine (owns_failed _).mono ?_ fun _ => id
      rintro _ _ ⟨rfl, rfl⟩
      exact ⟨⟨_, rfl, rfl⟩, leaves_row own info row⟩
  | true =>
      refine .free_bind (.bind (owns_pngFreeData (Q := fun _ own' => own' =
        own ++ (png, Object.png) :: (info, .info) :: row.toList.map (·, Object.row))
        (by simp) (by simp) rfl) ?_)
      rintro _ _ rfl
      refine .free_bind ?_
      cases row with
      | none => exact .pure ⟨⟨_, rfl, rfl⟩, leaves_one own info .info⟩
      | some row =>
          show Owns (own ++ ([(info, .info)] ++ [(row, .row)])) _ _ _
          rw [← List.append_assoc]
          exact Owns.free_last (.pure ⟨⟨_, rfl, rfl⟩, leaves_one own info .info⟩)

end Owned

/-! ## Runs of exports -/

/-- One call of `to_png`, on the disk as it is then. -/
structure Call where
  q : QR
  env : Env
  encodeText : Bytes → Ecc → Option Symbol
  disk : Disk

/-- The program of an export, its result dropped. -/
def Call.exec (c : Call) : Prog Unit := do
  let _ ← toPng c.q c.env c.encodeText c.disk

/-- The call without its objects. -/
def Call.result (c : Call) : Except Abort Export := c.q.toPng c.env c.encodeText c.disk

/-- The export writes its image. -/
def Call.succeeds (c : Call) : Bool :=
  match c.result with
  | .ok w => w.ok
  | .error _ => false

/-- What an export leaves. -/
def Call.leak (c : Call) : List Object :=
  if c.q.text.isEmpty then []
  else if !c.q.overwriteExistingFile && (c.disk (untilZero c.q.filename)).isSome
      && c.env.readable then []
  else
    match c.encodeText (untilZero c.q.text) c.q.ecc with
    | none => []
    | some qrCode => pngLeak c.env qrCode (c.q.size.tdiv qrCode.size)

theorem owns_toPng (c : Call) (own : List (Nat × Object)) :
    Owns own (toPng c.q c.env c.encodeText c.disk)
      (fun a own' => Answers c.result a ∧ Leaves own c.leak own')
      (fun e => c.result = .error e) := by
  obtain ⟨q, env, encodeText, disk⟩ := c
  unfold toPng Call.result QR.toPng Call.leak
  cases q.text.isEmpty with
  | true => exact .pure ⟨⟨_, rfl, rfl⟩, leaves_nil own⟩
  | false =>
  simp only [← Bool.and_assoc]
  cases !q.overwriteExistingFile && (disk (untilZero q.filename)).isSome && env.readable with
  | true => exact .pure ⟨⟨_, rfl, rfl⟩, leaves_nil own⟩
  | false =>
  cases hcode : encodeText (untilZero q.text) q.ecc with
  | none => exact .stop rfl
  | some qrCode => exact owns_writeToPng

theorem file_not_mem_pngLeak (env : Env) (qr : Symbol) (m : Int) :
    Object.file ∉ pngLeak env qr m := by
  unfold pngLeak imageLeak rowBuffer
  split
  · exact List.not_mem_nil
  split
  · exact List.not_mem_cons_of_ne_of_not_mem nofun List.not_mem_nil
  split
  · exact List.not_mem_nil
  split
  · exact List.not_mem_cons_of_ne_of_not_mem nofun List.not_mem_nil
  split
  · exact List.not_mem_nil
  · split
    · split <;> simp
    · simp

theorem Call.file_not_mem_leak (c : Call) : Object.file ∉ c.leak := by
  unfold Call.leak
  split
  · exact List.not_mem_nil
  split
  · exact List.not_mem_nil
  split
  · exact List.not_mem_nil
  · exact file_not_mem_pngLeak _ _ _

theorem pngLeak_of_true {env : Env} {filename : Bytes} {qr : Symbol} {m : Int} {disk : Disk}
    (h : Answers (Qr.writeToPng env filename qr m disk) true) : pngLeak env qr m = [.info] := by
  obtain ⟨w, h, hok⟩ := h
  unfold Qr.writeToPng at h
  unfold pngLeak
  cases hopens : env.opens with
  | false =>
      rw [hopens] at h
      cases h
      cases hok
  | true =>
  cases hstruct : env.writeStruct with
  | false =>
      rw [hopens, hstruct] at h
      cases h
      cases hok
  | true =>
  cases hinfo : env.infoStruct with
  | false =>
      rw [hopens, hstruct, hinfo] at h
      cases h
      cases hok
  | true =>
  rw [hopens, hstruct, hinfo] at h
  obtain ⟨side, hside, h⟩ := bind_eq_ok.mp h
  simp only [hside]
  cases hheader : env.headerOk side side && env.infoOk with
  | false => rfl
  | true =>
  rw [hheader] at h
  obtain ⟨rows, hrows, h⟩ := bind_eq_ok.mp h
  simp only [hrows, imageLeak]
  by_cases htaken : (taken env rows).length < rows.length
  · rw [if_pos htaken] at h
    cases h
    cases hok
  rw [if_neg htaken] at h
  cases hend : env.endOk with
  | false =>
      rw [hend] at h
      cases h
      cases hok
  | true => simp [htaken]

theorem Call.leak_written {c : Call} {qrCode : Symbol} (htext : ¬ c.q.text.isEmpty = true)
    (hwrites : ¬ (!c.q.overwriteExistingFile
      && ((c.disk (untilZero c.q.filename)).isSome && c.env.readable)) = true)
    (hcode : c.encodeText (untilZero c.q.text) c.q.ecc = some qrCode) :
    c.leak = pngLeak c.env qrCode (c.q.size.tdiv qrCode.size) := by
  rw [leak, if_neg htext, Bool.and_assoc, if_neg hwrites, hcode]

theorem Call.leak_of_succeeds {c : Call} (h : c.succeeds = true) : c.leak = [.info] := by
  unfold succeeds at h
  split at h
  · next w hw =>
      unfold result QR.toPng at hw
      dsimp only at hw
      split at hw
      · cases hw
        cases h
      next htext =>
      split at hw
      · cases hw
        cases h
      next hwrites =>
      split at hw
      · cases hw
      next qrCode hcode =>
      exact (leak_written htext hwrites hcode).trans (pngLeak_of_true ⟨w, hw, h⟩)
  · cases h

theorem countP_succeeds_le (calls : List Call) :
    calls.countP Call.succeeds ≤ (calls.flatMap Call.leak).count .info := by
  induction calls with
  | nil => exact Nat.le_refl 0
  | cons c calls ih =>
      rw [List.flatMap_cons, List.count_append, List.countP_cons]
      split
      · next hsucceeds =>
          rw [Call.leak_of_succeeds hsucceeds, List.count_singleton_self]
          omega
      · omega

/-- **What exports leave**: whatever the C library answers, no object is used
or freed after its free, the file of each export is closed, and what is live
after a run is what the exports in it left. An export that succeeds leaves
its info struct, so there are at least as many of these. -/
theorem run_open (calls : List Call) :
    run (callStep Call.exec) (.ok .start) calls ≠ .error .misuse
      ∧ ((∀ c ∈ calls, ∀ e, c.result ≠ .error e) →
          ∃ h, run (callStep Call.exec) (.ok .start) calls = .ok h)
      ∧ ∀ h, run (callStep Call.exec) (.ok .start) calls = .ok h →
          h.live.map Prod.snd = calls.flatMap Call.leak
            ∧ Object.file ∉ h.live.map Prod.snd
            ∧ calls.countP Call.succeeds ≤ (h.live.map Prod.snd).count .info := by
  obtain ⟨hmisuse, hreturns, hlive⟩ := run_calls (fun c own => (owns_toPng c own).discard) calls
  refine ⟨hmisuse, hreturns, ?_⟩
  intro h hrun
  have hkinds := hlive h hrun
  refine ⟨hkinds, ?_, hkinds ▸ countP_succeeds_le calls⟩
  rw [hkinds, List.mem_flatMap]
  rintro ⟨c, -, hfile⟩
  exact c.file_not_mem_leak hfile

end Neroshop.Qr.Resources
