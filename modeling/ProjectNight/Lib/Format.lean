import Mathlib.Algebra.Group.Nat.Defs
import Mathlib.Data.List.Basic

/-!
# Byte Formats

A writer and a reader of values of one type, where the reader returns what
follows the value and reads back whatever was written. The law is part of a
format, so a format for a record is put together from those of its fields
with nothing left to prove.

Lengths are stored in four bytes. The law is therefore about values whose
encoding is shorter than `2 ^ 32`; a part is never longer than the whole, so
the bound passes down to the parts.

## Main definitions

* `Format`: A writer, a reader, and the law.
* `fixed`, `word`, `long`, `short`, `byte`, `flag`, `bytes`: Numbers and strings.
* `seq`, `map`, `option`, `list`: Pairs, other representations, optional
  values, and lists.
* `into`: Reading one alternative of a union.
-/

/-- Values written to bytes and read back from the front of a byte list. -/
structure Format (α : Type) where
  put : α → List UInt8
  get : List UInt8 → Option (α × List UInt8)
  get_put : ∀ a rest, (put a).length < 2 ^ 32 → get (put a ++ rest) = some (a, rest)

namespace Format

variable {α β γ : Type}

/-! ### Numbers -/

/-- `k` bytes of a number, the lowest first. -/
def putFixed : Nat → Nat → List UInt8
  | 0, _ => []
  | k + 1, n => UInt8.ofNat (n % 256) :: putFixed k (n / 256)

def getFixed : Nat → List UInt8 → Option (Nat × List UInt8)
  | 0, bytes => some (0, bytes)
  | _ + 1, [] => none
  | k + 1, b :: bytes => (getFixed k bytes).map fun p => (b.toNat + 256 * p.1, p.2)

theorem length_putFixed (k n : Nat) : (putFixed k n).length = k := by
  induction k generalizing n with
  | zero => rfl
  | succ k ih => rw [putFixed, List.length_cons, ih]

-- What is read back is the number without the bytes that were not written.
theorem getFixed_putFixed (k n : Nat) (rest : List UInt8) :
    getFixed k (putFixed k n ++ rest) = some (n % 256 ^ k, rest) := by
  induction k generalizing n with
  | zero => rw [Nat.pow_zero, Nat.mod_one]; rfl
  | succ k ih =>
      have hbyte : (UInt8.ofNat (n % 256)).toNat = n % 256 := by
        rw [UInt8.toNat_ofNat']
        omega
      rw [putFixed, List.cons_append, getFixed, ih, Option.map_some, hbyte, Nat.pow_succ,
        Nat.mul_comm (256 ^ k), Nat.mod_mul]

/-- A number below `256 ^ k`, in `k` bytes. -/
def fixed (k : Nat) (ofNat : Nat → α) (toNat : α → Nat)
    (h : ∀ a, ofNat (toNat a % 256 ^ k) = a) : Format α where
  put a := putFixed k (toNat a)
  get bytes := (getFixed k bytes).map fun p => (ofNat p.1, p.2)
  get_put a rest _ := by rw [getFixed_putFixed, Option.map_some, h]

def byte : Format UInt8 :=
  fixed 1 UInt8.ofNat UInt8.toNat (fun a => by
    rw [Nat.mod_eq_of_lt (by have := a.toNat_lt; omega), UInt8.ofNat_toNat])

def short : Format UInt16 :=
  fixed 2 UInt16.ofNat UInt16.toNat (fun a => by
    rw [Nat.mod_eq_of_lt (by have := a.toNat_lt; omega), UInt16.ofNat_toNat])

def word : Format UInt32 :=
  fixed 4 UInt32.ofNat UInt32.toNat (fun a => by
    rw [Nat.mod_eq_of_lt (by have := a.toNat_lt; omega), UInt32.ofNat_toNat])

def long : Format UInt64 :=
  fixed 8 UInt64.ofNat UInt64.toNat (fun a => by
    rw [Nat.mod_eq_of_lt (by have := a.toNat_lt; omega), UInt64.ofNat_toNat])

@[simp] theorem length_byte (a : UInt8) : (byte.put a).length = 1 := length_putFixed 1 _

@[simp] theorem length_short (a : UInt16) : (short.put a).length = 2 := length_putFixed 2 _

@[simp] theorem length_word (a : UInt32) : (word.put a).length = 4 := length_putFixed 4 _

/-! ### Pairs and representations -/

def unit : Format Unit where
  put _ := []
  get bytes := some ((), bytes)
  get_put _ _ _ := rfl

def seq (f : Format α) (g : Format β) : Format (α × β) where
  put p := f.put p.1 ++ g.put p.2
  get bytes := (f.get bytes).bind fun p => (g.get p.2).map fun q => ((p.1, q.1), q.2)
  get_put p rest h := by
    rw [List.length_append] at h
    rw [List.append_assoc, f.get_put p.1 _ (by omega), Option.bind_some,
      g.get_put p.2 rest (by omega), Option.map_some]

@[simp] theorem length_seq (f : Format α) (g : Format β) (p : α × β) :
    ((f.seq g).put p).length = (f.put p.1).length + (g.put p.2).length := List.length_append

/-- Another representation of the same values. -/
def map (f : Format α) (pack : α → Option β) (unpack : β → α)
    (h : ∀ b, pack (unpack b) = some b) : Format β where
  put b := f.put (unpack b)
  get bytes := (f.get bytes).bind fun p => (pack p.1).map fun b => (b, p.2)
  get_put b rest hlen := by
    rw [f.get_put (unpack b) rest hlen, Option.bind_some, h, Option.map_some]

@[simp] theorem length_map (f : Format α) (pack : α → Option β) (unpack : β → α)
    (h : ∀ b, pack (unpack b) = some b) (b : β) :
    ((f.map pack unpack h).put b).length = (f.put (unpack b)).length := rfl

def flag : Format Bool :=
  byte.map (fun b => some (b = 1)) (fun b => if b then 1 else 0) (fun b => by cases b <;> rfl)

/-! ### Strings, optional values and lists -/

/-- A byte string behind its length. -/
def bytes : Format (List UInt8) where
  put s := putFixed 4 s.length ++ s
  get input := (getFixed 4 input).bind fun p =>
    if p.1 ≤ p.2.length then some (p.2.take p.1, p.2.drop p.1) else none
  get_put s rest h := by
    rw [List.length_append] at h
    have hlen : s.length % 256 ^ 4 = s.length := Nat.mod_eq_of_lt (by omega)
    rw [List.append_assoc, getFixed_putFixed, Option.bind_some, hlen,
      if_pos (by rw [List.length_append]; omega), List.take_left, List.drop_left]

@[simp] theorem length_bytes (s : List UInt8) : (bytes.put s).length = 4 + s.length := by
  rw [bytes, List.length_append, length_putFixed]

def option (f : Format α) : Format (Option α) where
  put
    | none => [0]
    | some a => 1 :: f.put a
  get
    | 0 :: rest => some (none, rest)
    | 1 :: rest => (f.get rest).map fun p => (some p.1, p.2)
    | _ => none
  get_put a rest h := by
    cases a with
    | none => rfl
    | some a =>
        rw [List.length_cons] at h
        exact congrArg (Option.map _) (f.get_put a rest (by omega))

@[simp] theorem length_option_some (f : Format α) (a : α) :
    (f.option.put (some a)).length = 1 + (f.put a).length := by
  rw [option, List.length_cons, Nat.add_comm]

@[simp] theorem length_option_none (f : Format α) : (f.option.put none).length = 1 := rfl

theorem length_option_le {f : Format α} {x : Option α} {n : Nat}
    (h : ∀ a, x = some a → (f.put a).length ≤ n) : (f.option.put x).length ≤ 1 + n := by
  cases x with
  | none =>
      rw [length_option_none]
      omega
  | some a =>
      have ha := h a rfl
      rw [length_option_some]
      omega

def putList (f : Format α) : List α → List UInt8
  | [] => [0]
  | a :: l => 1 :: f.put a ++ f.putList l

def getList (f : Format α) : Nat → List UInt8 → Option (List α × List UInt8)
  | _ + 1, 0 :: rest => some ([], rest)
  | fuel + 1, 1 :: rest => (f.get rest).bind fun p =>
      (f.getList fuel p.2).map fun q => (p.1 :: q.1, q.2)
  | _, _ => none

-- An element takes a byte at least, so the input is fuel enough.
theorem length_le_putList (f : Format α) (l : List α) : l.length < (f.putList l).length := by
  induction l with
  | nil => exact Nat.zero_lt_one
  | cons a l ih =>
      rw [putList, List.cons_append, List.length_cons, List.length_cons, List.length_append]
      omega

theorem getList_putList (f : Format α) (l : List α) (rest : List UInt8) (fuel : Nat)
    (hfuel : l.length < fuel) (h : (f.putList l).length < 2 ^ 32) :
    f.getList fuel (f.putList l ++ rest) = some (l, rest) := by
  induction l generalizing fuel with
  | nil =>
      rcases Nat.exists_eq_add_one_of_ne_zero (by omega : fuel ≠ 0) with ⟨k, rfl⟩
      rfl
  | cons a l ih =>
      rw [List.length_cons] at hfuel
      rcases Nat.exists_eq_add_one_of_ne_zero (by omega : fuel ≠ 0) with ⟨k, rfl⟩
      rw [putList, List.cons_append, List.length_cons, List.length_append] at h
      rw [putList, List.cons_append, List.cons_append, List.append_assoc, getList,
        f.get_put a _ (by omega), Option.bind_some, ih k (by omega) (by omega),
        Option.map_some]

def list (f : Format α) : Format (List α) where
  put := f.putList
  get input := f.getList (input.length + 1) input
  get_put l rest h := by
    have hlen := f.length_le_putList l
    refine f.getList_putList l rest _ ?_ h
    rw [List.length_append]
    omega

/-! ### Unions -/

/-- Read a value and take it for an alternative of a union. -/
def into (f : Format α) (alternative : α → γ) (input : List UInt8) :
    Option (γ × List UInt8) :=
  (f.get input).map fun p => (alternative p.1, p.2)

theorem into_put (f : Format α) (alternative : α → γ) (a : α) (rest : List UInt8)
    (h : (f.put a).length < 2 ^ 32) :
    f.into alternative (f.put a ++ rest) = some (alternative a, rest) := by
  rw [into, f.get_put a rest h, Option.map_some]

end Format
