import StreamServer.Proofs.Conditions
import StreamServer.Proofs.ReaderSteps
import StreamServer.Proofs.Transfer
import StreamServer.Transport.Script

/-!
# Quoted messages

Messages quote texts that come from outside: the beginning of a payload that a peer
has caused to be sent, or an address from a file.  A quoted text stays on the line
it is written on, whatever it holds, and says exactly which text it was, for the
spelling can be undone.  So nothing that is quoted can pass for a line of a log, nor
two texts for one another.

The spelling of one character is undone first, and by induction that of a text; what
it says about one character alone is carried to texts in the same way.
-/

namespace StreamServer

namespace Quoted

/-! ## Undoing a spelling -/

theorem value?_digitChar
    {d : Nat}
    (digit : d < 16) :
    Digits.value? (Nat.digitChar d) = some d := by
  have hall : ∀ d < 16, Digits.value? (Nat.digitChar d) = some d := by
    decide
  exact hall d digit

theorem digitChar_ne_brace
    {d : Nat}
    (digit : d < 16) :
    Nat.digitChar d ≠ '\x7d' := by
  have hall : ∀ d < 16, Nat.digitChar d ≠ '\x7d' := by
    decide
  exact hall d digit

/-- One digit more shifts the number before it by a place. -/
theorem unspell?_digitChar
    (value : Nat)
    {d : Nat}
    (digit : d < 16)
    (rest : List Char) :
    unspell? (.digits value) (Nat.digitChar d :: rest) =
      unspell? (.digits (value * 16 + d)) rest := by
  rw [unspell?, if_neg (digitChar_ne_brace digit), value?_digitChar digit]

/-- The digits of a number lead to that number. -/
theorem unspell?_write
    (n : Nat) (rest : List Char) :
    unspell? (.digits 0) (Digits.write 16 n ++ rest) =
      unspell? (.digits n) rest := by
  refine Digits.write_induction (by decide)
    (P := fun n ds => ∀ rest,
      unspell? (.digits 0) (ds ++ rest) = unspell? (.digits n) rest)
    ?single ?more n rest
  case single =>
    intro d hd rest
    rw [List.cons_append, List.nil_append, unspell?_digitChar 0 hd,
      Nat.zero_mul, Nat.zero_add]
  case more =>
    intro n d _ hd front rest
    rw [List.append_assoc, front, List.cons_append, List.nil_append,
      unspell?_digitChar n hd]

/-- The ways to spell a character: with a backslash and one character for it, by its
number, or as it stands. -/
inductive Spelt (c : Char) : List Char → Prop
  | short
      (x : Char)
      (not_number : x ≠ 'u')
      (spells : short? x = some c) :
      Spelt c ['\\', x]
  | number :
      Spelt c (['\\', 'u', '\x7b'] ++ Digits.write 16 c.toNat ++ ['\x7d'])
  | plain
      (printed : isUnprintable c = false)
      (no_backslash : c ≠ '\\')
      (no_quote : c ≠ '"') :
      Spelt c [c]

theorem spelt_spell
    (c : Char) :
    Spelt c (spell c) := by
  unfold spell
  iterate 6
    split
    · next is =>
        rw [is]
        exact .short _ (by decide) (by decide)
  split
  · exact .number
  · next printed => exact .plain (by simpa using printed) ‹_› ‹_›

/-- Reading a spelling gives its character, and goes on after it. -/
theorem Spelt.unspell?_append
    {c : Char} {spelling : List Char}
    (spelt : Spelt c spelling)
    (rest : List Char) :
    unspell? .plain (spelling ++ rest) =
      (unspell? .plain rest).map (c :: ·) := by
  have hbackslash : ∀ more,
      unspell? .plain ('\\' :: more) = unspell? .backslash more := by
    intro more
    simp [unspell?]
  cases spelt with
  | short x not_number spells =>
      rw [List.cons_append, hbackslash, List.cons_append, List.nil_append,
        unspell?, if_neg not_number, spells]
  | number =>
      have hopening : ∀ more,
          unspell? .backslash ('u' :: '\x7b' :: more) =
            unspell? (.digits 0) more := by
        intro more
        simp [unspell?]
      have hclosing : ∀ n more,
          unspell? (.digits n) ('\x7d' :: more) =
            (unspell? .plain more).map (Char.ofNat n :: ·) := by
        intro n more
        simp [unspell?]
      simp only [List.cons_append, List.append_assoc, List.nil_append]
      rw [hbackslash, hopening, unspell?_write, hclosing, Char.ofNat_toNat]
  | plain printed no_backslash no_quote =>
      simp [unspell?, no_backslash, no_quote]

/-- What is quoted can be read back. -/
theorem unquote?_quoteChars
    (cs : List Char) :
    unquote? (quoteChars cs) = some cs := by
  rw [quoteChars, List.cons_append, unquote?]
  induction cs with
  | nil => rfl
  | cons c cs ih =>
      rw [List.flatMap_cons, List.append_assoc, (spelt_spell c).unspell?_append, ih]
      rfl

end Quoted

/-! ## On one line -/

/-- A control character. -/
def IsControl (c : Char) : Prop :=
  c.toNat < 0x20 ∨ (0x7F ≤ c.toNat ∧ c.toNat ≤ 0x9F)

instance : DecidablePred IsControl :=
  fun c => inferInstanceAs
    (Decidable (c.toNat < 0x20 ∨ (0x7F ≤ c.toNat ∧ c.toNat ≤ 0x9F)))

/-- A text without control characters and without separators of lines and
paragraphs. -/
def OneLine (cs : List Char) : Prop :=
  ∀ c ∈ cs, ¬ IsControl c ∧ c ≠ '\u2028' ∧ c ≠ '\u2029'

instance (cs : List Char) : Decidable (OneLine cs) :=
  List.decidableBAll
    (fun c : Char => ¬ IsControl c ∧ c ≠ '\u2028' ∧ c ≠ '\u2029') cs

theorem OneLine.append
    {cs ds : List Char}
    (left : OneLine cs)
    (right : OneLine ds) :
    OneLine (cs ++ ds) :=
  List.forall_mem_append.mpr ⟨left, right⟩

theorem Unprintable.outside_of_covers
    {rs : List (Nat × Nat)} {r : Nat × Nat} {n : Nat}
    (uncovered : covers rs n = false)
    (mem : r ∈ rs) :
    n < r.1 ∨ r.2 < n := by
  have hnot := List.any_eq_false.mp uncovered r mem
  simp only [Bool.and_eq_true, decide_eq_true_eq, not_and, Nat.not_le] at hnot
  by_cases hlow : r.1 ≤ n
  · exact Or.inr (hnot hlow)
  · exact Or.inl (Nat.lt_of_not_le hlow)

/-- A character with a printed form is no control character and no separator. -/
theorem oneLine_of_printed
    {c : Char}
    (printed : isUnprintable c = false) :
    OneLine [c] := by
  rw [isUnprintable, Bool.or_eq_false_iff] at printed
  obtain ⟨hlow, huncovered⟩ := printed
  have hlow : 0x20 ≤ c.toNat := by simpa using hlow
  have hcontrols := Unprintable.outside_of_covers huncovered
    (show (0x7F, 0xA0) ∈ Unprintable.ranges by decide)
  have hseparators := Unprintable.outside_of_covers huncovered
    (show (0x2028, 0x202F) ∈ Unprintable.ranges by decide +kernel)
  intro d mem
  rw [List.mem_singleton] at mem
  subst mem
  refine ⟨?_, ?_, ?_⟩
  · unfold IsControl
    omega
  · rintro rfl
    simp at hseparators
  · rintro rfl
    simp at hseparators

namespace Quoted

/-- A character that is spelt with a backslash has a letter for it, or a sign. -/
theorem oneLine_of_short?
    {x c : Char}
    (spells : short? x = some c) :
    OneLine [x] := by
  unfold short? at spells
  iterate 6
    split at spells
    · next is =>
        rw [is]
        decide
  cases spells

theorem oneLine_write
    (n : Nat) :
    OneLine (Digits.write 16 n) := by
  have hdigit : ∀ d < 16, OneLine [Nat.digitChar d] := by
    decide
  refine Digits.write_induction (by decide) (P := fun _ ds => OneLine ds)
    hdigit ?more n
  case more =>
    intro n d _ hd front
    exact front.append (hdigit d hd)

theorem Spelt.oneLine
    {c : Char} {spelling : List Char}
    (spelt : Spelt c spelling) :
    OneLine spelling := by
  cases spelt with
  | short x not_number spells =>
      have hbackslash : OneLine ['\\'] := by decide
      exact hbackslash.append (oneLine_of_short? spells)
  | number =>
      exact .append (.append (by decide) (oneLine_write c.toNat)) (by decide)
  | plain printed no_backslash no_quote => exact oneLine_of_printed printed

/-- Whatever is quoted is on one line. -/
theorem oneLine_quoteChars
    (cs : List Char) :
    OneLine (quoteChars cs) := by
  have hspelt : OneLine (cs.flatMap spell) := by
    intro d mem
    obtain ⟨c, -, hd⟩ := List.mem_flatMap.mp mem
    exact (spelt_spell c).oneLine d hd
  have hquote : OneLine ['"'] := by decide
  exact (hquote.append hspelt).append hquote

end Quoted

/-! ## Messages -/

/-- The text that a message quotes at its end, read from its first quote on. -/
def quoted? (message : String) : Option String :=
  (Quoted.unquote? (message.toList.dropWhile (· ≠ '"'))).map String.ofList

/-- A message on one line that tells which text it quotes. -/
structure Quotes (message quoted : String) : Prop where
  one_line : OneLine message.toList
  told : quoted? message = some quoted

/-- An introduction and a quoted text make such a message. -/
theorem Quotes.of_introduction
    {introduction : String}
    (one_line : OneLine introduction.toList)
    (unquoted : '"' ∉ introduction.toList)
    (s : String) :
    Quotes (introduction ++ quote s) s := by
  have hlist : (introduction ++ quote s).toList =
      introduction.toList ++ Quoted.quoteChars s.toList := by
    rw [String.toList_append, quote, String.toList_ofList]
  constructor
  · rw [hlist]
    exact one_line.append (Quoted.oneLine_quoteChars s.toList)
  · have hdrop : (introduction.toList ++ Quoted.quoteChars s.toList).dropWhile
        (· ≠ '"') = Quoted.quoteChars s.toList := by
      have hother : ∀ c ∈ introduction.toList, decide (c ≠ '"') = true :=
        fun c mem => decide_eq_true fun is => unquoted (is ▸ mem)
      rw [List.dropWhile_append_of_pos hother]
      rfl
    rw [quoted?, hlist, hdrop, Quoted.unquote?_quoteChars, Option.map_some,
      String.ofList_toList]

/-- Messages that quote different texts are different. -/
theorem Quotes.ne
    {message other p q : String}
    (quotes : Quotes message p)
    (quotes' : Quotes other q)
    (different : p ≠ q) :
    message ≠ other := by
  rintro rfl
  have hboth := quotes.told.symm.trans quotes'.told
  exact different (Option.some.inj hboth)

theorem ConnectionError.quotes_notLive
    (p : String) :
    Quotes (notLive p).message p :=
  .of_introduction (by decide +kernel) (by decide +kernel) p

theorem ConnectionError.quotes_writeFailed
    (p : String) (f : Fault) :
    Quotes (writeFailed p f).message p :=
  .of_introduction (by decide +kernel) (by decide +kernel) p

theorem Violation.quotes_bindAddress
    (given : String) :
    Quotes (bindAddress given).message given :=
  .of_introduction (by decide +kernel) (by decide +kernel) given

namespace Connection

variable {σ : Type} [Transport σ]

/-- An error of a write shows the beginning of the payload. -/
theorem write_error_shows
    {c : Connection} {t : σ} {data : Bytes} {e : ConnectionError}
    (failed : (c.write t data).result = .error e) :
    let shown := preview data c.settings.previewLength.toNat
    e = .notLive shown ∨ ∃ f, e = .writeFailed shown f := by
  rcases write_cases c t data with
    ⟨-, hwrite⟩ | ⟨-, hwrite⟩ | ⟨h, answer, T, -, -, -, -, hresult, -⟩
  · rw [hwrite] at failed
    cases failed
    exact Or.inl rfl
  · rw [hwrite] at failed
    cases failed
  · rw [hresult] at failed
    cases answer with
    | ok n =>
        simp only [writeResult] at failed
        split at failed
        · cases failed
          exact Or.inr ⟨_, rfl⟩
        · cases failed
    | error f =>
        simp only [writeResult] at failed
        split at failed
        · cases failed
        · cases failed
          exact Or.inr ⟨_, rfl⟩

/-- An error of a delivery shows the beginning of what was left. -/
theorem writeAll_error_shows
    {c : Connection} {t : σ} {data : Bytes} {e : ConnectionError}
    (failed : (c.writeAll t data).result = .error e) :
    ∃ rest,
      rest <:+ data ∧
      let shown := preview rest c.settings.previewLength.toNat
      (e = .notLive shown ∨ ∃ f, e = .writeFailed shown f) := by
  fun_induction writeAll c t data with
  | case1 t => cases failed
  | case2 t b rest o e' stopped =>
      cases failed
      exact ⟨_, List.suffix_refl _, write_error_shows stopped⟩
  | case3 t b rest o none_taken =>
      cases failed
      exact ⟨_, List.suffix_refl _, Or.inr ⟨_, rfl⟩⟩
  | case4 t b rest o n some_taken ih =>
      obtain ⟨left, hleft, hshown⟩ := ih failed
      have hrest : rest.drop n <:+ b :: rest :=
        (List.drop_suffix n rest).trans (List.suffix_cons b rest)
      exact ⟨left, hleft.trans hrest, hshown⟩

end Connection

/-- What is reported under the path of the address to listen at quotes it. -/
theorem Settings.eq_bindAddress_of_field
    {s : Settings} {v : Violation}
    (mem : v ∈ s.violations)
    (under : v.field = "listener.bind_address") :
    v = .bindAddress s.listener.bindAddress := by
  rw [violations_eq_map] at mem
  obtain ⟨c, -, rfl⟩ := List.mem_map.mp mem
  rw [Condition.field_complaint] at under
  cases c with
  | bindAddress => rfl
  | _ => exact absurd under (by decide)

/--
**Quoted messages stay on one line and tell what they quote**, for any connection
and transport, any payload and any settings.

* A write or a delivery that fails shows the beginning of what is left of the
  payload.  Whatever the octets are, the message has no control characters and no
  separators of lines or paragraphs, and the preview can be read back from it.
* Two errors of one kind that show different previews have different messages,
  whatever faults are behind them.
* What is reported of the address to listen at quotes the address in the same way:
  on one line, to be read back, and different for different addresses.
-/
theorem quoted_messages_tell
    {σ : Type} [Transport σ]
    (c : Connection) (t : σ) (data : Bytes) (s : Settings) :
    (∀ e,
      (c.write t data).result = .error e ∨
        (c.writeAll t data).result = .error e →
      ∃ rest,
        rest <:+ data ∧
        let shown := preview rest c.settings.previewLength.toNat
        (e = .notLive shown ∨ ∃ f, e = .writeFailed shown f) ∧
        Quotes e.message shown) ∧
    (∀ p q, p ≠ q →
      (ConnectionError.notLive p).message ≠
        (ConnectionError.notLive q).message) ∧
    (∀ p q f g, p ≠ q →
      (ConnectionError.writeFailed p f).message ≠
        (ConnectionError.writeFailed q g).message) ∧
    (∀ v ∈ s.violations, v.field = "listener.bind_address" →
      v = .bindAddress s.listener.bindAddress ∧
        Quotes v.message s.listener.bindAddress) ∧
    (∀ a b, a ≠ b →
      (Violation.bindAddress a).message ≠
        (Violation.bindAddress b).message) := by
  refine ⟨?payload, fun p q => ?notLive, fun p q f g => ?writeFailed, ?address,
    fun a b => ?addresses⟩
  case payload =>
    intro e failed
    have hshows : ∃ rest,
        rest <:+ data ∧
        let shown := preview rest c.settings.previewLength.toNat
        (e = .notLive shown ∨ ∃ f, e = .writeFailed shown f) := by
      rcases failed with hwrite | hall
      · exact ⟨data, List.suffix_refl data, Connection.write_error_shows hwrite⟩
      · exact Connection.writeAll_error_shows hall
    obtain ⟨rest, hrest, hshown⟩ := hshows
    refine ⟨rest, hrest, hshown, ?_⟩
    rcases hshown with rfl | ⟨f, rfl⟩
    · exact ConnectionError.quotes_notLive _
    · exact ConnectionError.quotes_writeFailed _ f
  case notLive =>
    exact (ConnectionError.quotes_notLive p).ne (ConnectionError.quotes_notLive q)
  case writeFailed =>
    exact (ConnectionError.quotes_writeFailed p f).ne
      (ConnectionError.quotes_writeFailed q g)
  case address =>
    intro v mem under
    obtain rfl := Settings.eq_bindAddress_of_field mem under
    exact ⟨rfl, Violation.quotes_bindAddress _⟩
  case addresses =>
    exact (Violation.quotes_bindAddress a).ne (Violation.quotes_bindAddress b)

/-- A payload and an address that hold nothing but what has to be spelt. -/
theorem quoted_messages_tell_hostile :
    let c : Connection :=
      { handle := none
        id := 3
        origin := "a"
        state := .closed
        settings := {} }
    let t : Script := { descriptor := 3, peer := .ok "a" }
    let data : Bytes :=
      [0x0A, 0x22, 0x5C, 0x1B, 0xC2, 0x85, 0xE2, 0x80, 0xA8, 0xFF]
    let shown := "\n\"\\\x1B\u0085\u2028\uFFFD"
    let s : Settings := { listener := { bindAddress := "\u2029\r\n" } }
    (c.write t data).result = .error (.notLive shown) ∧
    Quotes (ConnectionError.notLive shown).message shown ∧
    (ConnectionError.notLive shown).message =
      "could not use socket because its handle is not live: " ++
        "\"\\n\\\"\\\\\\u\x7b1b\x7d\\u\x7b85\x7d\\u\x7b2028\x7d\uFFFD\"" ∧
    Violation.bindAddress "\u2029\r\n" ∈ s.violations ∧
    Quotes (Violation.bindAddress "\u2029\r\n").message "\u2029\r\n" ∧
    (Violation.bindAddress "\u2029\r\n").message ≠
      (Violation.bindAddress "\u2029\n").message := by
  intro c t data shown s
  have failed : (c.write t data).result = .error (.notLive shown) := by
    decide +kernel
  have mem : Violation.bindAddress "\u2029\r\n" ∈ s.violations := by
    decide +kernel
  obtain ⟨hpayload, -, -, haddress, hdifferent⟩ :=
    quoted_messages_tell c t data s
  obtain ⟨rest, -, hshown, hquotes⟩ := hpayload _ (Or.inl failed)
  have hrest : preview rest c.settings.previewLength.toNat = shown := by
    rcases hshown with hsame | ⟨f, hother⟩
    · exact (ConnectionError.notLive.inj hsame).symm
    · cases hother
  rw [hrest] at hquotes
  exact ⟨failed, hquotes, by decide +kernel, mem, (haddress _ mem rfl).2,
    hdifferent _ _ (by decide +kernel)⟩

end StreamServer
