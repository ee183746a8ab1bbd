import Mathlib.Data.List.SplitBy
import StreamServer.Document.Json
import StreamServer.Proofs.ReaderSteps

/-!
# Values as text

A value is printed piece by piece on one line, and the reader gives back the
value that was printed.  This holds of every value whose integers fit sixty-four
bits and whose lists and tables are not nested too deep, whatever characters its
strings have.  Reals and moments are left out: the first are rounded, the second
have no text of their own.  No control characters are printed, neither of
strings and numbers nor of tables made up of them.

What is read back is said of a printed value before any text that can follow a
value: nothing, a comma, or the end of a list or table.  So lists and tables
come out by the readers' repetition, and the induction is on the value.
-/

namespace StreamServer

namespace Json

/-! ## What is printed -/

/-- The pieces of a string make up the string. -/
theorem flatten_stringPieces
    (s : String) :
    (stringPieces s).flatten = printString s := by
  have hruns : ∀ css : List (List Char),
      (css.map (·.flatMap escape)).flatten = css.flatten.flatMap escape := by
    intro css
    induction css with
    | nil => rfl
    | cons cs rest ih => simp [ih]
  simp [stringPieces, printString, hruns, List.flatten_splitBy]

theorem print_string
    (s : String) :
    print (.string s) = printString s := by
  exact flatten_stringPieces s

theorem print_ofNat
    (n : Nat) :
    print (.ofNat n) = Digits.decimal n := by
  exact List.append_nil _

/-- An item after the first is printed after a comma. -/
def printItem (v : Value) : List Char :=
  ',' :: print v

/-- A key and its value, with a colon between them. -/
def printPair (e : String × Value) : List Char :=
  printString e.1 ++ ':' :: print e.2

/-- An entry after the first is printed after a comma. -/
def printEntry (e : String × Value) : List Char :=
  ',' :: printPair e

theorem printItems_eq
    (vs : List Value) :
    printItems vs = vs.flatMap printItem ++ [']'] := by
  induction vs with
  | nil => rfl
  | cons v rest ih =>
      rw [printItems] at ih
      simp [printItems, itemPieces, ih, printItem, print]

theorem printEntries_eq
    (entries : List (String × Value)) :
    printEntries entries = entries.flatMap printEntry ++ ['\x7d'] := by
  induction entries with
  | nil => rfl
  | cons e rest ih =>
      rw [printEntries] at ih
      simp [printEntries, entryPieces, ih, printEntry, printPair, print,
        flatten_stringPieces]

theorem print_list_cons
    (v : Value) (rest : List Value) :
    print (.list (v :: rest)) =
      '[' :: print v ++ (rest.flatMap printItem ++ [']']) := by
  rw [← printItems_eq]
  simp [print, printPieces, printItems]

theorem print_table_cons
    (e : String × Value) (rest : List (String × Value)) :
    print (.table (e :: rest)) =
      '\x7b' :: printPair e ++ (rest.flatMap printEntry ++ ['\x7d']) := by
  rw [← printEntries_eq]
  simp [print, printPieces, printEntries, printPair, flatten_stringPieces]

/-- The values that are read back as they are printed, with lists and tables
nested no deeper than a given depth. -/
inductive Faithful : Nat → Value → Prop
  | null
      {depth : Nat} :
      Faithful depth .null
  | bool
      {depth : Nat}
      (b : Bool) :
      Faithful depth (.bool b)
  | natural
      {depth n : Nat}
      (fits : n < UInt64.size) :
      Faithful depth (.ofNat n)
  | negative
      {depth n : Nat}
      (fits : n < 9223372036854775808) :
      Faithful depth (.integer (.negSucc n))
  | string
      {depth : Nat}
      (s : String) :
      Faithful depth (.string s)
  | list
      {depth : Nat} {items : List Value}
      (all : ∀ v ∈ items, Faithful depth v) :
      Faithful (depth + 1) (.list items)
  | table
      {depth : Nat} {entries : List (String × Value)}
      (all : ∀ e ∈ entries, Faithful depth e.2) :
      Faithful (depth + 1) (.table entries)

/-! ## Strings -/

/-- The numbers of control characters, as four hexadecimal digits. -/
theorem unit?_control :
    ∀ n < 32,
      unit? '0' '0' (Nat.digitChar (n / 16)) (Nat.digitChar (n % 16)) =
        some n := by
  decide

/-- The spelling of a character is read as that character. -/
theorem stringBody_escape
    (c : Char) (s : List Char) :
    stringBody (escape c ++ s) = consChar c (stringBody s) := by
  unfold escape
  split
  · next h => subst h; simp [stringBody, unescape?]
  split
  · next h => subst h; simp [stringBody, unescape?]
  split
  · next h => subst h; simp [stringBody, unescape?]
  split
  · next h => subst h; simp [stringBody, unescape?]
  split
  · next h => subst h; simp [stringBody, unescape?]
  split
  · next h => subst h; simp [stringBody, unescape?]
  split
  · next h => subst h; simp [stringBody, unescape?]
  split
  · next control =>
      have hvalid : c.toNat.isValidChar := by
        simp only [Nat.isValidChar]
        omega
      simp only [List.cons_append, List.nil_append, stringBody,
        unit?_control c.toNat control, hvalid, if_true, Char.ofNat_toNat]
  · next quote backslash _ _ _ _ _ printed =>
      rw [List.singleton_append, stringBody.eq_def]
      split <;> simp_all

/-- The spelling of a string is read up to its quote. -/
theorem stringBody_flatMap
    (cs s : List Char) :
    stringBody (cs.flatMap escape ++ '"' :: s) = some (cs, s) := by
  induction cs with
  | nil => simp [stringBody]
  | cons c rest ih =>
      rw [List.flatMap_cons, List.append_assoc, stringBody_escape, ih]
      rfl

theorem string_printString
    (t : String) (s : List Char) :
    string (printString t ++ s) = some (t, s) := by
  have hbody := stringBody_flatMap t.toList s
  rw [printString, List.cons_append, List.cons_append, List.append_assoc,
    List.singleton_append, string,
    Reader.bind_of_accepts (Reader.char_cons _ _),
    Reader.bind_of_accepts hbody, String.ofList_toList]
  rfl

/-! ## Numbers -/

/-- A text that can follow a value: nothing, a comma, or the end of a list or
table. -/
def Ends (s : List Char) : Prop :=
  ∀ c ∈ s.head?, c = ',' ∨ c = ']' ∨ c = '\x7d'

theorem Ends.head_ne
    {s : List Char}
    (ends : Ends s)
    {c : Char}
    (other : c ≠ ',' ∧ c ≠ ']' ∧ c ≠ '\x7d') :
    s.head? ≠ some c := by
  intro h
  rcases ends c h with rfl | rfl | rfl
  · exact other.1 rfl
  · exact other.2.1 rfl
  · exact other.2.2 rfl

/-- No character that can follow a value is of a kind that goes on with it. -/
theorem Ends.all_ne
    {s : List Char}
    (ends : Ends s)
    {asked : Char → Bool}
    (none_of : asked ',' = false ∧ asked ']' = false ∧ asked '\x7d' = false) :
    ∀ c ∈ s.head?, asked c = false := by
  intro c hc
  rcases ends c hc with rfl | rfl | rfl
  · exact none_of.1
  · exact none_of.2.1
  · exact none_of.2.2

theorem wholePart_decimal
    (n : Nat)
    {s : List Char}
    (ends : Ends s) :
    wholePart (Digits.decimal n ++ s) = some (Digits.decimal n, s) := by
  have hdigit : ∀ c ∈ Digits.decimal n, isDigit c = true :=
    fun c hc => Digits.isDigit_of_isDigit (Digits.isDigit_of_mem_decimal hc)
  rcases Digits.decimal_cases n with hzero | ⟨c, cs, hcons, hne⟩
  · rw [hzero, wholePart, List.singleton_append,
      Reader.bind_of_accepts (a := '0') (t := s) rfl, if_pos rfl]
    rfl
  · rw [hcons] at hdigit ⊢
    have hfirst : Reader.satisfy isDigit (c :: cs ++ s) =
        some (c, cs ++ s) := by
      simp [Reader.satisfy, hdigit c List.mem_cons_self]
    have hmore : Reader.takeWhile isDigit (cs ++ s) = some (cs, s) :=
      Reader.takeWhile_append
        (fun d hd => hdigit d (List.mem_cons_of_mem c hd))
        (ends.all_ne (by decide))
    rw [wholePart, Reader.bind_of_accepts hfirst, if_neg hne,
      Reader.bind_of_accepts hmore]
    rfl

/-- A number without fraction and exponent is read up to what follows it. -/
theorem number_of_sign
    {n : Nat} {s t : List Char} {sign : Option Unit} {v : Value}
    (signed :
      Reader.optional (Reader.char '-') t =
        some (sign, Digits.decimal n ++ s))
    (ends : Ends s)
    (means :
      numberValue sign.isSome (Digits.decimal n) none none = some v) :
    number t = some (v, s) := by
  have hfraction : fraction s = none := by
    rw [fraction, Reader.bind_of_refuses
      (Reader.char_refuses (ends.head_ne (by decide)))]
  have hexponent : exponent s = none := by
    rw [exponent, Reader.bind_of_refuses
      (Reader.satisfy_refuses (ends.all_ne (by decide)))]
  rw [number, Reader.bind_of_accepts signed,
    Reader.bind_of_accepts (wholePart_decimal n ends),
    Reader.bind_of_accepts (Reader.optional_of_refuses hfraction),
    Reader.bind_of_accepts (Reader.optional_of_refuses hexponent), means]
  rfl

theorem number_natural
    {n : Nat}
    (fits : n < UInt64.size)
    {s : List Char}
    (ends : Ends s) :
    number (Digits.decimal n ++ s) = some (.ofNat n, s) := by
  have hhead := Digits.head?_decimal_ne (c := '-') (by decide) n s
  refine number_of_sign
    (Reader.optional_of_refuses (Reader.char_refuses hhead)) ends ?_
  simp [numberValue, Digits.read?_decimal, fits, Value.ofNat]

theorem number_negative
    {n : Nat}
    (fits : n < 9223372036854775808)
    {s : List Char}
    (ends : Ends s) :
    number ('-' :: Digits.decimal (n + 1) ++ s) =
      some (.integer (.negSucc n), s) := by
  have hle : n + 1 ≤ 9223372036854775808 := fits
  refine number_of_sign
    (Reader.optional_of_accepts (Reader.char_cons _ _)) ends ?_
  simp [numberValue, Digits.read?_decimal, hle, Int.negSucc_eq]

/-! ## Values without parts -/

theorem word_append
    (w : String) (v : Value) (s : List Char) :
    word w v (w.toList ++ s) = some (v, s) := by
  rw [word, Reader.bind_of_accepts (Reader.chars_append _ _)]
  rfl

theorem word_refuses
    {w : String} {c : Char} {cs : List Char}
    (letters : w.toList = c :: cs)
    (v : Value)
    {s : List Char}
    (other : s.head? ≠ some c) :
    word w v s = none := by
  rw [word, letters,
    Reader.bind_of_refuses (Reader.chars_refuses other)]

theorem scalar_null
    (s : List Char) :
    scalar (print .null ++ s) = some (.null, s) := by
  simp only [scalar, Reader.firstOf]
  exact Reader.orElse_of_accepts (word_append "null" .null s)

theorem scalar_bool
    (b : Bool) (s : List Char) :
    scalar (print (.bool b) ++ s) = some (.bool b, s) := by
  simp only [scalar, Reader.firstOf]
  cases b with
  | true =>
      have hnull :
          word "null" .null (print (.bool true) ++ s) = none :=
        word_refuses (c := 'n') rfl _ (by rintro ⟨⟩)
      rw [Reader.orElse_of_refuses hnull]
      exact Reader.orElse_of_accepts (word_append "true" (.bool true) s)
  | false =>
      have hnull :
          word "null" .null (print (.bool false) ++ s) = none :=
        word_refuses (c := 'n') rfl _ (by rintro ⟨⟩)
      have htrue :
          word "true" (.bool true) (print (.bool false) ++ s) = none :=
        word_refuses (c := 't') rfl _ (by rintro ⟨⟩)
      rw [Reader.orElse_of_refuses hnull, Reader.orElse_of_refuses htrue]
      exact Reader.orElse_of_accepts (word_append "false" (.bool false) s)

/-- Text that begins like no word is a string or a number, if it is a value
without parts. -/
theorem scalar_eq
    {s : List Char}
    (no_null : s.head? ≠ some 'n')
    (no_true : s.head? ≠ some 't')
    (no_false : s.head? ≠ some 'f') :
    scalar s =
      Reader.orElse (do let t ← string; pure (.string t))
        (Reader.orElse number Reader.refuse) s := by
  have hnull : word "null" .null s = none := word_refuses rfl _ no_null
  have htrue : word "true" (.bool true) s = none :=
    word_refuses rfl _ no_true
  have hfalse : word "false" (.bool false) s = none :=
    word_refuses rfl _ no_false
  simp only [scalar, Reader.firstOf, Reader.orElse_of_refuses hnull,
    Reader.orElse_of_refuses htrue, Reader.orElse_of_refuses hfalse]

theorem scalar_string
    (t : String) (s : List Char) :
    scalar (printString t ++ s) = some (.string t, s) := by
  rw [scalar_eq (by simp [printString]) (by simp [printString])
      (by simp [printString]),
    Reader.orElse_of_accepts]
  rw [Reader.bind_of_accepts (string_printString t s)]
  rfl

/-- A number that is read is a value without parts. -/
theorem scalar_of_number
    {s t : List Char} {v : Value}
    (accepts : number s = some (v, t))
    (no_word :
      s.head? ≠ some 'n' ∧ s.head? ≠ some 't' ∧ s.head? ≠ some 'f' ∧
        s.head? ≠ some '"') :
    scalar s = some (v, t) := by
  have hstring : string s = none := by
    rw [string, Reader.bind_of_refuses (Reader.char_refuses no_word.2.2.2)]
  rw [scalar_eq no_word.1 no_word.2.1 no_word.2.2.1,
    Reader.orElse_of_refuses (Reader.bind_of_refuses hstring),
    Reader.orElse_of_accepts accepts]

/-- The end of a list is no value. -/
theorem scalar_end
    (s : List Char) :
    scalar (']' :: s) = none := by
  have hstring : string (']' :: s) = none := by
    rw [string, Reader.bind_of_refuses (Reader.char_refuses (by simp))]
  have hwhole : wholePart (']' :: s) = none := by
    rw [wholePart, Reader.bind_of_refuses]
    exact Reader.satisfy_refuses (by rintro c ⟨⟩; decide)
  have hnumber : number (']' :: s) = none := by
    rw [number,
      Reader.bind_of_accepts
        (Reader.optional_of_refuses (Reader.char_refuses (by simp))),
      Reader.bind_of_refuses hwhole]
  rw [scalar_eq (by simp) (by simp) (by simp),
    Reader.orElse_of_refuses (Reader.bind_of_refuses hstring),
    Reader.orElse_of_refuses hnumber]
  rfl

/-! ## Lists and tables -/

/-- Text that begins no list and no table is read as a value without parts. -/
theorem value_eq_scalar
    (depth : Nat)
    {s : List Char}
    (no_list : s.head? ≠ some '[')
    (no_table : s.head? ≠ some '\x7b') :
    value depth s = scalar s := by
  cases depth with
  | zero => rfl
  | succ depth =>
      have hlist : list (value depth) s = none := by
        rw [list, Reader.bind_of_refuses (Reader.char_refuses no_list)]
      have htable : table (value depth) s = none := by
        rw [table, Reader.bind_of_refuses (Reader.char_refuses no_table)]
      simp only [value, Reader.firstOf, Reader.orElse_of_refuses hlist,
        Reader.orElse_of_refuses htable]
      rw [Reader.orElse]
      cases scalar s <;> rfl

/-- A text that does not begin with a blank. -/
def Tight (s : List Char) : Prop :=
  ∀ c ∈ s.head?, isBlank c = false

theorem Ends.tight
    {s : List Char}
    (ends : Ends s) :
    Tight s := by
  exact ends.all_ne (by decide)

theorem blanks_of_tight
    {s : List Char}
    (tight : Tight s) :
    blanks s = some ((), s) := by
  have htake : Reader.takeWhile isBlank ([] ++ s) = some ([], s) :=
    Reader.takeWhile_append (by simp) tight
  rw [List.nil_append] at htake
  rw [blanks, Reader.bind_of_accepts htake]
  rfl

/-- Where there are no blanks, none are skipped. -/
theorem spaced_of_tight
    {α : Type} {p : Reader α} {s t : List Char} {a : α}
    (accepts : p s = some (a, t))
    (before : Tight s)
    (behind : Tight t) :
    spaced p s = some (a, t) := by
  rw [spaced, Reader.bind_of_accepts (blanks_of_tight before),
    Reader.bind_of_accepts accepts,
    Reader.bind_of_accepts (blanks_of_tight behind)]
  rfl

/-- What follows an item or an entry can follow a value. -/
theorem ends_flatMap
    {α : Type}
    (write : α → List Char) (xs : List α)
    {stop : List Char}
    (ends : Ends stop) :
    Ends (xs.flatMap (fun x => ',' :: write x) ++ stop) := by
  cases xs with
  | nil => exact ends
  | cons x rest =>
      rintro c ⟨⟩
      exact Or.inl rfl

theorem tight_decimal
    (n : Nat) (s : List Char) :
    Tight (Digits.decimal n ++ s) := by
  intro c hc
  by_contra hblank
  simp only [isBlank, Bool.not_eq_false, Bool.or_eq_true,
    decide_eq_true_eq] at hblank
  rcases hblank with ((rfl | rfl) | rfl) | rfl <;>
    exact absurd hc (Digits.head?_decimal_ne (by decide) n s)

/-- No printed value begins with a blank. -/
theorem tight_print
    {depth : Nat} {v : Value}
    (faithful : Faithful depth v)
    (s : List Char) :
    Tight (print v ++ s) := by
  cases faithful with
  | null =>
      rintro c ⟨⟩
      decide
  | bool b =>
      cases b <;>
        · rintro c ⟨⟩
          decide
  | natural _ =>
      rw [print_ofNat]
      exact tight_decimal _ s
  | @list _ items _ =>
      cases items <;>
        · rintro c ⟨⟩
          decide
  | @table _ entries _ =>
      cases entries <;>
        · rintro c ⟨⟩
          decide
  | negative _ | string _ =>
      rintro c ⟨⟩
      decide

section Parts

variable {p : Reader Value}

/-- A reader of items reads a list of them. -/
theorem list_print
    {items : List Value}
    (refuses : ∀ s, p (']' :: s) = none)
    (reads : ∀ v ∈ items, ∀ s, Ends s → p (print v ++ s) = some (v, s))
    (tight : ∀ v ∈ items, ∀ s, Tight (print v ++ s))
    (s : List Char) :
    list p (print (.list items) ++ s) = some (.list items, s) := by
  have hends : Ends (']' :: s) := by
    rintro c ⟨⟩
    exact Or.inr (Or.inl rfl)
  cases items with
  | nil =>
      have hnone : spaced p (']' :: s) = none := by
        rw [spaced, Reader.bind_of_accepts (blanks_of_tight hends.tight),
          Reader.bind_of_refuses (refuses s)]
      show list p ('[' :: ']' :: s) = _
      rw [list, Reader.bind_of_accepts (Reader.char_cons _ _),
        Reader.bind_of_accepts (blanks_of_tight hends.tight),
        Reader.bind_of_accepts (Reader.separated_nil hnone),
        Reader.bind_of_accepts (Reader.char_cons _ _)]
      rfl
  | cons v rest =>
      have hitems :
          Reader.separated (Reader.char ',') (spaced p)
              (print v ++ (rest.flatMap printItem ++ ']' :: s)) =
            some (v :: rest, ']' :: s) := by
        refine Reader.separated_cons (by simp) ?_
        intro w hw zs
        have hmore := ends_flatMap print zs hends
        exact spaced_of_tight (reads w hw _ hmore) (tight w hw _)
          hmore.tight
      rw [print_list_cons, List.cons_append, List.cons_append,
        List.append_assoc, List.append_assoc, List.singleton_append, list,
        Reader.bind_of_accepts (Reader.char_cons _ _),
        Reader.bind_of_accepts
          (blanks_of_tight (tight v List.mem_cons_self _)),
        Reader.bind_of_accepts hitems,
        Reader.bind_of_accepts (Reader.char_cons _ _)]
      rfl

theorem tight_printPair
    (e : String × Value) (s : List Char) :
    Tight (printPair e ++ s) := by
  rintro c ⟨⟩
  decide

/-- An entry is read up to what follows it. -/
theorem entry_printPair
    {e : String × Value}
    (reads : ∀ s, Ends s → p (print e.2 ++ s) = some (e.2, s))
    (tight : ∀ s, Tight (print e.2 ++ s))
    {s : List Char}
    (ends : Ends s) :
    entry p (printPair e ++ s) = some (e, s) := by
  have hcolon : Tight (':' :: print e.2 ++ s) := by
    rintro c ⟨⟩
    decide
  have hkey :
      spaced string (printPair e ++ s) =
        some (e.1, ':' :: print e.2 ++ s) := by
    refine spaced_of_tight ?_ (tight_printPair e s) hcolon
    rw [printPair, List.append_assoc, string_printString]
  rw [entry, Reader.bind_of_accepts hkey, List.cons_append,
    Reader.bind_of_accepts (Reader.char_cons _ _),
    Reader.bind_of_accepts
      (spaced_of_tight (reads s ends) (tight s) ends.tight)]
  rfl

/-- A reader of values reads a table of them. -/
theorem table_print
    {entries : List (String × Value)}
    (reads :
      ∀ e ∈ entries, ∀ s, Ends s → p (print e.2 ++ s) = some (e.2, s))
    (tight : ∀ e ∈ entries, ∀ s, Tight (print e.2 ++ s))
    (s : List Char) :
    table p (print (.table entries) ++ s) = some (.table entries, s) := by
  have hends : Ends ('\x7d' :: s) := by
    rintro c ⟨⟩
    exact Or.inr (Or.inr rfl)
  cases entries with
  | nil =>
      have hstring : string ('\x7d' :: s) = none := by
        rw [string, Reader.bind_of_refuses (Reader.char_refuses (by simp))]
      have hkey : spaced string ('\x7d' :: s) = none := by
        rw [spaced, Reader.bind_of_accepts (blanks_of_tight hends.tight),
          Reader.bind_of_refuses hstring]
      have hnone : entry p ('\x7d' :: s) = none := by
        rw [entry, Reader.bind_of_refuses hkey]
      show table p ('\x7b' :: '\x7d' :: s) = _
      rw [table, Reader.bind_of_accepts (Reader.char_cons _ _),
        Reader.bind_of_accepts (blanks_of_tight hends.tight),
        Reader.bind_of_accepts (Reader.separated_nil hnone),
        Reader.bind_of_accepts (Reader.char_cons _ _)]
      rfl
  | cons e rest =>
      have hentries :
          Reader.separated (Reader.char ',') (entry p)
              (printPair e ++ (rest.flatMap printEntry ++ '\x7d' :: s)) =
            some (e :: rest, '\x7d' :: s) := by
        refine Reader.separated_cons (by simp) ?_
        intro f hf zs
        exact entry_printPair (reads f hf) (tight f hf)
          (ends_flatMap printPair zs hends)
      rw [print_table_cons, List.cons_append, List.cons_append,
        List.append_assoc, List.append_assoc, List.singleton_append, table,
        Reader.bind_of_accepts (Reader.char_cons _ _),
        Reader.bind_of_accepts (blanks_of_tight (tight_printPair e _)),
        Reader.bind_of_accepts hentries,
        Reader.bind_of_accepts (Reader.char_cons _ _)]
      rfl

end Parts

/-! ## All values -/

/-- A printed value is read back before whatever may follow it. -/
theorem value_print
    {depth : Nat} {v : Value}
    (faithful : Faithful depth v)
    {s : List Char}
    (ends : Ends s) :
    value depth (print v ++ s) = some (v, s) := by
  induction faithful generalizing s with
  | @null depth =>
      rw [value_eq_scalar depth (by simp [print, printPieces])
        (by simp [print, printPieces]), scalar_null]
  | @bool depth b =>
      have hhead : ∀ {c : Char}, c ≠ 't' ∧ c ≠ 'f' →
          (print (.bool b) ++ s).head? ≠ some c := by
        rintro c ⟨ht, hf⟩ h
        cases b
        · exact hf (Option.some.inj h).symm
        · exact ht (Option.some.inj h).symm
      rw [value_eq_scalar depth (hhead (by decide)) (hhead (by decide)),
        scalar_bool]
  | @natural depth n fits =>
      have hne : ∀ {c : Char}, c.isDigit = false →
          (print (.ofNat n) ++ s).head? ≠ some c := by
        intro c hc
        rw [print_ofNat]
        exact Digits.head?_decimal_ne hc n s
      rw [value_eq_scalar depth (hne (by decide)) (hne (by decide))]
      refine scalar_of_number ?_
        ⟨hne (by decide), hne (by decide), hne (by decide),
          hne (by decide)⟩
      rw [print_ofNat]
      exact number_natural fits ends
  | @negative depth n fits =>
      have hprint :
          print (.integer (.negSucc n)) = '-' :: Digits.decimal (n + 1) :=
        List.append_nil _
      rw [hprint, value_eq_scalar depth (by simp) (by simp)]
      exact scalar_of_number (number_negative fits ends)
        ⟨by simp, by simp, by simp, by simp⟩
  | @string depth t =>
      rw [print_string, value_eq_scalar depth (by simp [printString])
        (by simp [printString]), scalar_string]
  | @list depth items all ih =>
      have hrefuses : ∀ t, value depth (']' :: t) = none := by
        intro t
        rw [value_eq_scalar depth (by simp) (by simp), scalar_end]
      have hlist :=
        list_print hrefuses (fun v hv t ht => ih v hv ht)
          (fun v hv => tight_print (all v hv)) s
      simp only [value, Reader.firstOf, Reader.orElse_of_accepts hlist]
  | @table depth entries all ih =>
      have htable :=
        table_print (fun e he t ht => ih e he ht)
          (fun e he => tight_print (all e he)) s
      have hlist :
          list (value depth) (print (.table entries) ++ s) = none := by
        have hhead : (print (.table entries) ++ s).head? = some '\x7b' := by
          cases entries <;> rfl
        rw [list, Reader.bind_of_refuses (Reader.char_refuses _)]
        rw [hhead]
        simp
      simp only [value, Reader.firstOf, Reader.orElse_of_refuses hlist,
        Reader.orElse_of_accepts htable]

/-- A value is read back from its text. -/
theorem parse?_text
    {v : Value}
    (faithful : Faithful maxDepth v) :
    parse? (text v) = some v := by
  have hends : Ends [] := by
    rintro c ⟨⟩
  have hvalue := value_print faithful hends
  have htight := tight_print faithful []
  rw [List.append_nil] at hvalue htight
  rw [parse?, text, String.toList_ofList, Reader.run?,
    spaced_of_tight hvalue htight hends.tight]

/-! ## No control characters -/

/-- A text without control characters. -/
def Visible (cs : List Char) : Prop :=
  ∀ c ∈ cs, 0x20 ≤ c.toNat

instance (cs : List Char) : Decidable (Visible cs) :=
  List.decidableBAll (fun c : Char => 0x20 ≤ c.toNat) cs

theorem Visible.append
    {cs ds : List Char}
    (left : Visible cs)
    (right : Visible ds) :
    Visible (cs ++ ds) :=
  List.forall_mem_append.mpr ⟨left, right⟩

theorem Visible.cons
    {c : Char} {cs : List Char}
    (first : 0x20 ≤ c.toNat)
    (rest : Visible cs) :
    Visible (c :: cs) :=
  List.forall_mem_cons.mpr ⟨first, rest⟩

theorem Visible.flatMap
    {α : Type} {write : α → List Char} {xs : List α}
    (each : ∀ x ∈ xs, Visible (write x)) :
    Visible (xs.flatMap write) := by
  intro c hc
  obtain ⟨x, hx, hmem⟩ := List.mem_flatMap.mp hc
  exact each x hx c hmem

/-- The spelling of a character has no control characters. -/
theorem visible_escape
    (c : Char) :
    Visible (escape c) := by
  have hhex : ∀ n < 16, 0x20 ≤ (Nat.digitChar n).toNat := by
    decide
  unfold escape
  iterate 7
    split
    · exact .cons (by decide) (.cons (by decide) (by decide))
  split
  · next control =>
      have hhigh := hhex (c.toNat / 16) (by omega)
      have hlow := hhex (c.toNat % 16) (by omega)
      exact .append (by decide) (.cons hhigh (.cons hlow (by decide)))
  · next printed => exact .cons (Nat.le_of_not_lt printed) (by decide)

theorem visible_printString
    (t : String) :
    Visible (printString t) := by
  exact .append
    (.cons (by decide) (.flatMap fun c _ => visible_escape c))
    (.cons (by decide) (by decide))

theorem visible_decimal
    (n : Nat) :
    Visible (Digits.decimal n) := by
  intro c hc
  have hdigit := Digits.isDigit_of_mem_decimal hc
  simp only [Char.isDigit, Bool.and_eq_true, decide_eq_true_eq,
    ge_iff_le, UInt32.le_iff_toNat_le] at hdigit
  have hlow : 48 ≤ c.toNat := hdigit.1
  omega

/-- A printed table has no control characters if its values have none. -/
theorem visible_table
    {entries : List (String × Value)}
    (values : ∀ e ∈ entries, Visible (print e.2)) :
    Visible (print (.table entries)) := by
  have hpair : ∀ e ∈ entries, Visible (printPair e) := fun e he =>
    .append (visible_printString e.1) (.cons (by decide) (values e he))
  cases entries with
  | nil => decide
  | cons e rest =>
      rw [print_table_cons]
      refine .append (.cons (by decide) (hpair e List.mem_cons_self)) ?_
      refine .append (.flatMap fun f hf => ?_) (by decide)
      exact .cons (by decide) (hpair f (List.mem_cons_of_mem e hf))

theorem visible_ofNat
    (n : Nat) :
    Visible (print (.ofNat n)) := by
  rw [print_ofNat]
  exact visible_decimal n

theorem visible_string
    (t : String) :
    Visible (print (.string t)) := by
  rw [print_string]
  exact visible_printString t

end Json

end StreamServer
