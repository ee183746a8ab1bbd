import StreamServer.Text.Digits
import StreamServer.Text.Reader

/-!
# Readers at work

What a composed reader does with a text, from what its parts do with it.  A
reader that is repeated over written values reads just these values, if it
reads each of them before whatever may follow, and refuses what comes after the
last.

The digits of a number are read back as that number.
-/

namespace StreamServer

namespace Reader

variable {α β : Type}
variable {p q : Reader α} {s t : List Char} {a : α}

/-- What is read in sequence is read one after the other. -/
theorem bind_of_accepts
    {f : α → Reader β}
    (accepts : p s = some (a, t)) :
    (p >>= f) s = f a t := by
  simp [bind, StateT.bind, accepts]

theorem bind_of_refuses
    {f : α → Reader β}
    (refuses : p s = none) :
    (p >>= f) s = none := by
  simp [bind, StateT.bind, refuses]

theorem orElse_of_accepts
    {r : α × List Char}
    (accepts : p s = some r) :
    orElse p q s = some r := by
  simp [orElse, accepts]

theorem orElse_of_refuses
    (refuses : p s = none) :
    orElse p q s = q s := by
  simp [orElse, refuses]

theorem optional_of_accepts
    (accepts : p s = some (a, t)) :
    optional p s = some (some a, t) := by
  simp [optional, accepts]

theorem optional_of_refuses
    (refuses : p s = none) :
    optional p s = some (none, s) := by
  simp [optional, refuses]

theorem char_cons
    (c : Char) (s : List Char) :
    char c (c :: s) = some ((), s) := by
  simp [char]

/-- A text that begins with another character is refused. -/
theorem char_refuses
    {c : Char}
    (other : s.head? ≠ some c) :
    char c s = none := by
  cases s with
  | nil => rfl
  | cons d rest =>
      have hne : d ≠ c := fun h => other (by rw [h]; rfl)
      simp [char, hne]

theorem chars_append
    (cs s : List Char) :
    chars cs (cs ++ s) = some ((), s) := by
  induction cs with
  | nil => rfl
  | cons c rest ih =>
      rw [chars, List.cons_append, bind_of_accepts (char_cons c _), ih]

theorem chars_refuses
    {c : Char} {cs : List Char}
    (other : s.head? ≠ some c) :
    chars (c :: cs) s = none := by
  rw [chars, bind_of_refuses (char_refuses other)]

theorem satisfy_refuses
    {asked : Char → Bool}
    (other : ∀ c ∈ s.head?, asked c = false) :
    satisfy asked s = none := by
  cases s with
  | nil => rfl
  | cons d rest => simp [satisfy, other d rfl]

/-- All characters that are as asked are taken, up to one that is not. -/
theorem takeWhile_append
    {asked : Char → Bool} {cs : List Char}
    (all : ∀ c ∈ cs, asked c = true)
    (other : ∀ c ∈ s.head?, asked c = false) :
    takeWhile asked (cs ++ s) = some (cs, s) := by
  have hstop : s.takeWhile asked = [] ∧ s.dropWhile asked = s := by
    cases s with
    | nil => exact ⟨rfl, rfl⟩
    | cons d rest => simp [other d rfl]
  simp only [takeWhile, List.takeWhile_append_of_pos all,
    List.dropWhile_append_of_pos all, hstop, List.append_nil]

/-- A reader that reads every written value before what follows it reads all
of them when it is repeated. -/
theorem repeated_flatMap
    {write : α → List Char} {stop : List Char}
    (stops : p stop = none)
    {xs : List α}
    (written : ∀ x ∈ xs, write x ≠ [])
    (reads : ∀ x ∈ xs, ∀ ys : List α,
      p (write x ++ (ys.flatMap write ++ stop)) =
        some (x, ys.flatMap write ++ stop)) :
    repeated p (xs.flatMap write ++ stop) = (xs, stop) := by
  induction xs with
  | nil =>
      rw [repeated, List.flatMap_nil, List.nil_append]
      simp [stops]
  | cons x rest ih =>
      have hx := reads x List.mem_cons_self rest
      have hrest :=
        ih (fun y hy => written y (List.mem_cons_of_mem x hy))
          (fun y hy => reads y (List.mem_cons_of_mem x hy))
      have hshorter :
          (rest.flatMap write ++ stop).length <
            (write x ++ (rest.flatMap write ++ stop)).length := by
        have hwritten :=
          List.length_pos_iff.mpr (written x List.mem_cons_self)
        rw [(List.length_append : (write x ++ _).length = _)]
        omega
      rw [List.flatMap_cons, List.append_assoc, repeated, hx]
      simp only [hshorter, if_true, hrest]

/-- Values that are written with a character between any two are read as they
are written, if each is read before what may follow it. -/
theorem separated_cons
    {c : Char} {write : α → List Char} {stop : List Char}
    (other : stop.head? ≠ some c)
    {x : α} {xs : List α}
    (reads : ∀ y ∈ x :: xs, ∀ zs : List α,
      p (write y ++ (zs.flatMap (fun z => c :: write z) ++ stop)) =
        some (y, zs.flatMap (fun z => c :: write z) ++ stop)) :
    separated (char c) p
        (write x ++ (xs.flatMap (fun z => c :: write z) ++ stop)) =
      some (x :: xs, stop) := by
  have hmore :
      repeated (do let _ ← char c; p)
          (xs.flatMap (fun z => c :: write z) ++ stop) =
        (xs, stop) := by
    refine repeated_flatMap ?_ (fun _ _ => List.cons_ne_nil _ _) ?_
    · rw [bind_of_refuses (char_refuses other)]
    · intro y hy zs
      rw [List.cons_append, bind_of_accepts (char_cons c _)]
      exact reads y (List.mem_cons_of_mem x hy) zs
  have hmany :
      many (do let _ ← char c; p)
          (xs.flatMap (fun z => c :: write z) ++ stop) =
        some (xs, stop) := by
    rw [many, hmore]
  rw [separated, orElse_of_accepts]
  rw [separated1, bind_of_accepts (reads x List.mem_cons_self xs),
    bind_of_accepts hmany]
  rfl

/-- Where no value begins there is none. -/
theorem separated_nil
    {separator : Reader β}
    (refuses : p s = none) :
    separated separator p s = some ([], s) := by
  rw [separated, orElse_of_refuses]
  · rfl
  · rw [separated1, bind_of_refuses refuses]

end Reader

namespace Digits

/-- A decimal digit is read as its distance from zero. -/
theorem value?_of_isDigit
    {c : Char}
    (digit : c.isDigit = true) :
    value? c = some (c.toNat - 48) ∧ c.toNat - 48 < 10 := by
  simp only [Char.isDigit, Bool.and_eq_true, decide_eq_true_eq,
    ge_iff_le, UInt32.le_iff_toNat_le] at digit
  obtain ⟨hlow, hhigh⟩ := digit
  have hrange : '0' ≤ c ∧ c ≤ '9' := ⟨hlow, hhigh⟩
  refine ⟨by simp [value?, hrange], ?_⟩
  have hnine : c.toNat ≤ 57 := hhigh
  omega

theorem isDigit_of_isDigit
    {c : Char}
    (digit : c.isDigit = true) :
    isDigit 10 c = true := by
  obtain ⟨hvalue, hlt⟩ := value?_of_isDigit digit
  simp [isDigit, hvalue, hlt]

theorem isDigit_of_mem_decimal
    {n : Nat} {c : Char}
    (mem : c ∈ decimal n) :
    c.isDigit = true := by
  exact Nat.isDigit_of_mem_toDigits (by decide) (by decide) mem

/-- Digits are read from the most significant on. -/
theorem readFrom?_of_isDigit
    {cs : List Char}
    (digits : ∀ c ∈ cs, c.isDigit = true)
    (value : Nat) :
    readFrom? 10 value cs = some (Nat.ofDigitChars 10 cs value) := by
  induction cs generalizing value with
  | nil => simp [readFrom?]
  | cons c rest ih =>
      obtain ⟨hvalue, hlt⟩ :=
        value?_of_isDigit (digits c List.mem_cons_self)
      have hrest := ih fun d hd => digits d (List.mem_cons_of_mem c hd)
      simp only [readFrom?, hvalue, hlt, if_true, hrest,
        Nat.ofDigitChars_cons, Nat.mul_comm 10 value]
      rfl

/-- The digits of a number are read back as that number. -/
theorem read?_decimal
    (n : Nat) :
    read? 10 (decimal n) = some n := by
  have hne : decimal n ≠ [] := Nat.toDigits_ne_nil
  have hread := readFrom?_of_isDigit
    (fun c (mem : c ∈ decimal n) => isDigit_of_mem_decimal mem) 0
  rw [decimal, write, Nat.ofDigitChars_ten_toDigits] at hread
  cases hds : Nat.toDigits 10 n with
  | nil => exact absurd hds hne
  | cons d ds =>
      rw [hds] at hread
      rw [decimal, write, hds]
      exact hread

/-- What holds of a single digit, and of a number and one digit more if it holds of
the number, holds of every number as it is written. -/
theorem write_induction
    {b : Nat}
    (base : 1 < b)
    {P : Nat → List Char → Prop}
    (single : ∀ d < b, P d [Nat.digitChar d])
    (more : ∀ n d, 0 < n → d < b → P n (write b n) →
      P (n * b + d) (write b n ++ [Nat.digitChar d]))
    (n : Nat) :
    P n (write b n) := by
  induction n using Nat.strongRecOn with
  | ind n ih =>
      have hpos : 0 < b := Nat.lt_of_succ_lt base
      by_cases hlt : n < b
      · rw [write, Nat.toDigits_of_lt_base hlt]
        exact single n hlt
      · have hle : b ≤ n := Nat.le_of_not_lt hlt
        have hfront : 0 < n / b := Nat.div_pos hle hpos
        have hless : n / b < n := Nat.div_lt_self (Nat.lt_of_lt_of_le hpos hle) base
        have hnext := more (n / b) (n % b) hfront (Nat.mod_lt n hpos)
          (ih (n / b) hless)
        rw [Nat.div_add_mod'] at hnext
        rwa [write, Nat.toDigits_of_base_le base hle]

/-- Only zero begins with a zero. -/
theorem decimal_cases
    (n : Nat) :
    decimal n = ['0'] ∨
      ∃ c cs, decimal n = c :: cs ∧ c ≠ '0' := by
  refine write_induction (by decide)
    (P := fun _ ds => ds = ['0'] ∨ ∃ c cs, ds = c :: cs ∧ c ≠ '0')
    ?single ?more n
  case single =>
    intro d hd
    by_cases hzero : Nat.digitChar d = '0'
    · exact Or.inl (by rw [hzero])
    · exact Or.inr ⟨_, [], rfl, hzero⟩
  case more =>
    intro n d hpos hd front
    rcases front with hzero | ⟨c, cs, hcons, hne⟩
    · have hread := read?_decimal n
      rw [decimal, hzero] at hread
      exact absurd (Option.some.inj hread) (Nat.ne_of_lt hpos)
    · exact Or.inr ⟨c, _, by rw [hcons]; rfl, hne⟩

/-- A printed number begins with a digit. -/
theorem head?_decimal_ne
    {c : Char}
    (other : c.isDigit = false)
    (n : Nat) (s : List Char) :
    (decimal n ++ s).head? ≠ some c := by
  intro h
  have hmem : c ∈ decimal n := by
    rcases decimal_cases n with hzero | ⟨d, ds, hcons, -⟩
    · rw [hzero] at h ⊢
      cases h
      exact List.mem_cons_self
    · rw [hcons] at h ⊢
      cases h
      exact List.mem_cons_self
  rw [isDigit_of_mem_decimal hmem] at other
  cases other

end Digits

end StreamServer
