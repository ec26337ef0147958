import Mathlib.Data.List.TakeWhile

/-!
# C strings

A memory region is the list of the bytes from a pointer to the end of the
accessible memory. Building a string from a bare `char *` takes the bytes
up to the first zero byte, wherever the object that the pointer was meant
for ends: the length of that object is not part of the pointer.
-/

namespace Lib.CStr

/-- A `char`. -/
abbrev Byte := UInt8

/-- A `std::string`, or a region of memory. -/
abbrev Bytes := List Byte

/-- The bytes of a literal of the source. -/
def ascii (s : String) : Bytes := s.toList.map fun c => UInt8.ofNat c.toNat

/-- The C string at the head of a region; `none` when the region holds no
zero byte, so that the read runs off its end. -/
def read : Bytes → Option Bytes
  | [] => none
  | b :: bs => if b = 0 then some [] else (read bs).map (b :: ·)

/-- Bytes at the start of a region; the rest of it stays. -/
def store (region src : Bytes) : Bytes := src ++ region.drop src.length

@[simp] theorem read_zero (bs : Bytes) : read (0 :: bs) = some [] := by
  simp [read]

/-- The bytes before the first zero byte, or all of them. -/
def untilZero (bs : Bytes) : Bytes := bs.takeWhile (· != 0)

theorem read_append_zero (s t : Bytes) :
    read (s ++ 0 :: t) = some (untilZero s) := by
  induction s with
  | nil => simp [untilZero]
  | cons b s ih =>
      by_cases hb : b = 0
      · simp [untilZero, hb]
      · simp [read, hb, ih, untilZero]

theorem isPrefix_untilZero (bs : Bytes) : untilZero bs <+: bs :=
  List.takeWhile_prefix _

theorem zero_notMem_untilZero (bs : Bytes) : 0 ∉ untilZero bs := by
  intro h
  exact absurd (List.mem_takeWhile_imp h) (by decide)

theorem untilZero_eq_iff {bs : Bytes} : untilZero bs = bs ↔ 0 ∉ bs := by
  simp only [untilZero, List.takeWhile_eq_self_iff, bne_iff_ne]
  constructor
  · intro h h0
    exact h 0 h0 rfl
  · intro h b hb hb0
    subst hb0
    exact h hb

/-- **Pieces cut at zero bytes** make up the whole exactly when there is no
zero byte. -/
theorem flatten_untilZero_eq_iff (pieces : List Bytes) :
    (pieces.map untilZero).flatten = pieces.flatten ↔ 0 ∉ pieces.flatten := by
  have hle (ps : List Bytes) :
      (ps.map untilZero).flatten.length ≤ ps.flatten.length := by
    induction ps with
    | nil => simp
    | cons p ps ih =>
        have hp := (isPrefix_untilZero p).length_le
        simp only [List.map_cons, List.flatten_cons, List.length_append]
        omega
  induction pieces with
  | nil => simp
  | cons p ps ih =>
      simp only [List.map_cons, List.flatten_cons, List.mem_append, not_or]
      constructor
      · intro h
        -- a piece cut short would have to be made up for by longer ones
        have hlen := congrArg List.length h
        simp only [List.length_append] at hlen
        have hp := (isPrefix_untilZero p).length_le
        have hps := hle ps
        obtain ⟨hp0, hps0⟩ := List.append_inj h (by omega)
        exact ⟨untilZero_eq_iff.mp hp0, ih.mp hps0⟩
      · intro h
        obtain ⟨hp, hps⟩ := h
        rw [untilZero_eq_iff.mpr hp, ih.mpr hps]

/-- **What a C string is**: the zero-free bytes in front of a zero byte. -/
theorem read_eq_some_iff {region s : Bytes} :
    read region = some s ↔ 0 ∉ s ∧ ∃ t, region = s ++ 0 :: t := by
  induction region generalizing s with
  | nil => simp [read]
  | cons b region ih =>
      by_cases hb : b = 0
      · subst hb
        rw [read_zero]
        constructor
        · intro h
          cases h
          exact ⟨by simp, region, rfl⟩
        · intro h
          obtain ⟨hs, t, ht⟩ := h
          cases s with
          | nil => rfl
          | cons c s =>
              simp only [List.cons_append, List.cons.injEq] at ht
              exact absurd (List.mem_cons.mpr (.inl ht.1)) hs
      · simp only [read, if_neg hb, Option.map_eq_some_iff]
        constructor
        · intro h
          obtain ⟨s', hs', rfl⟩ := h
          obtain ⟨hmem, t, rfl⟩ := ih.mp hs'
          exact ⟨by simp [hmem, Ne.symm hb], t, rfl⟩
        · intro h
          obtain ⟨hs, t, ht⟩ := h
          cases s with
          | nil =>
              simp only [List.nil_append, List.cons.injEq] at ht
              exact absurd ht.1 hb
          | cons c s =>
              simp only [List.cons_append, List.cons.injEq] at ht
              obtain ⟨rfl, ht⟩ := ht
              have hs' : 0 ∉ s := by
                intro h
                exact hs (List.mem_cons_of_mem _ h)
              exact ⟨s, ih.mpr ⟨hs', t, ht⟩, rfl⟩

/-- **When the C string is the object**: reading the first `obj` bytes of a
region back through a bare pointer gives `obj` exactly when `obj` holds no
zero byte and the byte after it is zero. -/
theorem read_eq_obj_iff {obj rest : Bytes} :
    read (obj ++ rest) = some obj ↔ 0 ∉ obj ∧ rest.head? = some 0 := by
  rw [read_eq_some_iff]
  apply and_congr_right
  intro _
  cases rest with
  | nil => simp
  | cons b rest => simp

theorem read_length_eq {obj rest s : Bytes} (h : read (obj ++ rest) = some s)
    (hlen : s.length = obj.length) : s = obj := by
  obtain ⟨_, t, ht⟩ := read_eq_some_iff.mp h
  exact List.append_inj_left ht.symm hlen

theorem read_isSome_iff {region : Bytes} : (read region).isSome ↔ 0 ∈ region := by
  induction region with
  | nil => simp [read]
  | cons b region ih =>
      by_cases hb : b = 0
      · simp [hb]
      · simp [read, hb, ih, Ne.symm hb]

theorem store_length {region src : Bytes} (h : src.length ≤ region.length) :
    (store region src).length = region.length := by
  simp [store]
  omega

/-! ## Reading a line -/

/-- The characters through the first newline. -/
def throughNewline : Bytes → Bytes
  | [] => []
  | b :: bs => if b = 10 then [10] else b :: throughNewline bs

/-- `fgets`, for an array of `size` characters: what is stored before the
closing zero byte; `none` when nothing is left to read, and the array stays
as it was. -/
def fgets (size : Nat) (input : Bytes) : Option Bytes :=
  if input.isEmpty then none else some (throughNewline (input.take (size - 1)))

theorem isPrefix_throughNewline (bs : Bytes) : throughNewline bs <+: bs := by
  induction bs with
  | nil => exact List.prefix_rfl
  | cons b bs ih =>
      rw [throughNewline]
      split
      · next hb => exact hb ▸ List.prefix_append [10] bs
      · exact (List.prefix_cons_inj b).mpr ih

/-- A newline can only be the last character of a line. -/
theorem newline_notMem_dropLast {p bs : Bytes} (h : p <+: throughNewline bs) :
    10 ∉ p.dropLast := by
  induction bs generalizing p with
  | nil =>
      rw [throughNewline, List.prefix_nil] at h
      rw [h]
      exact List.not_mem_nil
  | cons b bs ih =>
      cases p with
      | nil => exact List.not_mem_nil
      | cons c p =>
          rw [throughNewline] at h
          split at h
          · have hp : p = [] := List.prefix_nil.mp (List.cons_prefix_cons.mp h).2
            rw [hp]
            exact List.not_mem_nil
          · next hb =>
              rcases List.cons_prefix_cons.mp h with ⟨rfl, hp⟩
              cases p with
              | nil => exact List.not_mem_nil
              | cons d p =>
                  rw [List.dropLast_cons_cons, List.mem_cons]
                  exact not_or.mpr ⟨Ne.symm hb, ih hp⟩

/-- A text without a newline before its last character is at the head of the
line. -/
theorem throughNewline_append {p : Bytes} (h : 10 ∉ p.dropLast) (t : Bytes) :
    ∃ t', t' <+: t ∧ throughNewline (p ++ t) = p ++ t' := by
  induction p with
  | nil => exact ⟨_, isPrefix_throughNewline t, rfl⟩
  | cons b p ih =>
      rw [List.cons_append, throughNewline]
      cases p with
      | nil =>
          split
          · next hb => exact ⟨[], List.nil_prefix, by rw [hb, List.append_nil]⟩
          · exact ⟨_, isPrefix_throughNewline t, rfl⟩
      | cons c p =>
          rw [List.dropLast_cons_cons, List.mem_cons, not_or] at h
          rcases ih h.2 with ⟨t', ht', heq⟩
          rw [if_neg (Ne.symm h.1)]
          exact ⟨t', ht', congrArg (b :: ·) heq⟩

end Lib.CStr
