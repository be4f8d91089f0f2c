import PushDelivery.Json
import PushDelivery.Proofs.Json.NumberText
import PushDelivery.Proofs.Json.Restoring

/-!
# Reading what was written

The compact text of a value is cut into the tokens of the value again, and these are read as the
document of the value. The only doubt is in the doubles: the shortest decimal that identifies a
double is not always read as that double, because the reader of numbers rounds more than once.
-/

namespace PushDelivery.Json

open Numeral

/-! ## Strings -/

/-- What the scanner makes of an escaped character. -/
def pieceOf (c : Char) : Piece :=
  if c.toNat < 0x20 ∧ c ≠ '\x08' ∧ c ≠ '\t' ∧ c ≠ '\n' ∧ c ≠ '\x0c' ∧ c ≠ '\r' then .unit c.toNat
  else .char c

theorem hexUnit?_control {n : Nat} (h : n < 0x20) :
    hexUnit? '0' '0' (digitChar (n / 16)) (digitChar (n % 16)) = some n := by
  revert n
  decide

theorem scanString_simpleEscape {c d : Char} (hc : c ≠ 'u') (h : simpleEscape? c = some d)
    (cs : List Char) : scanString ('\\' :: c :: cs) = (scanString cs).map fun (pieces, rest) =>
      (.char d :: pieces, rest) := by
  rw [scanString.eq_4 _ _ (fun _ _ _ _ _ h _ => hc h), h]
  cases scanString cs <;> rfl

theorem scanString_unit {a b c d : Char} {u : Nat} (h : hexUnit? a b c d = some u)
    (cs : List Char) : scanString ('\\' :: 'u' :: a :: b :: c :: d :: cs) =
      (scanString cs).map fun (pieces, rest) => (.unit u :: pieces, rest) := by
  rw [scanString, h]
  cases scanString cs <;> rfl

theorem scanString_char {c : Char} (hquote : c ≠ '"') (hsolidus : c ≠ '\\') (h : ¬ c.toNat < 0x20)
    (cs : List Char) : scanString (c :: cs) = (scanString cs).map fun (pieces, rest) =>
      (.char c :: pieces, rest) := by
  rw [scanString.eq_5 _ _ hquote (fun _ _ _ _ _ h _ => hsolidus h) fun _ _ h _ => hsolidus h,
    if_neg (not_or.mpr ⟨hsolidus, h⟩)]
  cases scanString cs <;> rfl

theorem scanString_escapeChar (c : Char) (cs : List Char) :
    scanString (escapeChar c ++ cs) = (scanString cs).map fun (pieces, rest) =>
      (pieceOf c :: pieces, rest) := by
  by_cases hsimple : c = '"' ∨ c = '\\' ∨ c = '\x08' ∨ c = '\t' ∨ c = '\n' ∨ c = '\x0c' ∨ c = '\r'
  · rcases hsimple with rfl | rfl | rfl | rfl | rfl | rfl | rfl <;>
      exact scanString_simpleEscape (by decide) (by decide) cs
  · simp only [not_or] at hsimple
    obtain ⟨hquote, hsolidus, hb, ht, hn, hf, hr⟩ := hsimple
    by_cases hcontrol : c.toNat < 0x20
    · simp [escapeChar, pieceOf, hquote, hsolidus, hb, ht, hn, hf, hr, hcontrol,
        scanString_unit (hexUnit?_control hcontrol)]
    · simp [escapeChar, pieceOf, hquote, hsolidus, hb, ht, hn, hf, hr, hcontrol,
        scanString_char hquote hsolidus hcontrol]

theorem joinPieces_pieceOf (c : Char) (pieces : List Piece) :
    joinPieces (pieceOf c :: pieces) = (joinPieces pieces).map (c :: ·) := by
  unfold pieceOf
  split
  next h =>
    have hhigh : isHighSurrogate c.toNat = false := by
      simp only [isHighSurrogate, decide_eq_false_iff_not]
      omega
    have hlow : isLowSurrogate c.toNat = false := by
      simp only [isLowSurrogate, decide_eq_false_iff_not]
      omega
    rw [joinPieces.eq_def]
    simp [hhigh, hlow, Char.ofNat_toNat]
  next => rfl

theorem joinPieces_map_pieceOf (cs : List Char) : joinPieces (cs.map pieceOf) = some cs := by
  induction cs with
  | nil => rfl
  | cons c cs ih => rw [List.map_cons, joinPieces_pieceOf, ih, Option.map_some]

theorem scanString_quoted (cs rest : List Char) :
    scanString (cs.flatMap escapeChar ++ '"' :: rest) = some (cs.map pieceOf, rest) := by
  induction cs with
  | nil => simp [scanString]
  | cons c cs ih =>
    rw [List.flatMap_cons, List.append_assoc, scanString_escapeChar, ih]
    rfl

/-! ## Tokens -/

/-- A word ends before a character that cannot be in one. -/
def EndsWord (rest : List Char) : Prop := ∀ c ∈ rest.head?, isWordChar c = false

theorem EndsWord.nil : EndsWord [] := by
  rintro _ ⟨⟩

theorem EndsWord.takeWhile {rest : List Char} (h : EndsWord rest) :
    rest.takeWhile isWordChar = [] := by
  cases rest with
  | nil => rfl
  | cons c rest => simp [h c rfl]

theorem EndsWord.dropWhile {rest : List Char} (h : EndsWord rest) :
    rest.dropWhile isWordChar = rest := by
  cases rest with
  | nil => rfl
  | cons c rest => simp [h c rfl]

/-- A text is cut into tokens, whatever follows it, as long as a word does not go on there. -/
def Lexes (cs : List Char) (ts : List Token) : Prop :=
  ∀ rest, EndsWord rest → tokens (cs ++ rest) = (tokens rest).map (ts ++ ·)

def marks : List (Char × Token) :=
  [('[', .openArray), (']', .closeArray), ('\x7b', .openObject), ('\x7d', .closeObject),
    (',', .comma), (':', .colon)]

variable {c : Char} {t : Token} {cs cs' : List Char} {ts ts' : List Token}

theorem tokens_mark (h : (c, t) ∈ marks) (rest : List Char) :
    tokens (c :: rest) = (tokens rest).map (t :: ·) := by
  simp only [marks, List.mem_cons, List.not_mem_nil, or_false, Prod.mk.injEq] at h
  rcases h with ⟨rfl, rfl⟩ | ⟨rfl, rfl⟩ | ⟨rfl, rfl⟩ | ⟨rfl, rfl⟩ | ⟨rfl, rfl⟩ | ⟨rfl, rfl⟩ <;>
    simp [tokens, isBlank]

theorem endsWord_mark (h : (c, t) ∈ marks) (rest : List Char) : EndsWord (c :: rest) := by
  have hmarks : ∀ m ∈ marks, isWordChar m.1 = false := by decide
  rintro _ ⟨⟩
  exact hmarks _ h

/-- The characters that are no part of a word: blanks, marks and the quotation mark. -/
def separators : List Char := [' ', '\t', '\n', '\r', '[', ']', '\x7b', '\x7d', ',', ':', '"']

theorem isWordChar_of_mem_separators (h : c ∈ separators) : isWordChar c = false := by
  have hall : separators.all (fun c => isWordChar c == false) = true := by decide
  exact eq_of_beq (List.all_eq_true.mp hall c h)

theorem tokens_quote {pieces : List Piece} {rest : List Char}
    (h : scanString cs = some (pieces, rest)) :
    tokens ('"' :: cs) =
      (tokens rest).map (.string ((joinPieces pieces).map String.ofList) :: ·) := by
  rw [tokens]
  simp only [isBlank, Char.reduceEq, or_self, decide_false, Bool.false_eq_true, if_false, if_true]
  split
  next hnone => cases hnone.symm.trans h
  next hsome =>
    cases hsome.symm.trans h
    rfl

namespace Lexes

theorem nil : Lexes [] [] := fun rest _ => by simp

theorem mark (h : (c, t) ∈ marks) (hcs : Lexes cs ts) : Lexes (c :: cs) (t :: ts) := by
  intro rest hrest
  rw [List.cons_append, tokens_mark h, hcs rest hrest, Option.map_map]
  rfl

theorem append_mark (h : (c, t) ∈ marks) (hcs : Lexes cs ts) (hcs' : Lexes cs' ts') :
    Lexes (cs ++ c :: cs') (ts ++ t :: ts') := by
  intro rest hrest
  rw [List.append_assoc, hcs (c :: cs' ++ rest) (endsWord_mark h _), hcs'.mark h rest hrest,
    Option.map_map]
  exact congrArg (Option.map · _) (funext fun ts'' => (List.append_assoc ts (t :: ts') ts'').symm)

theorem quoted (s : String) (hcs : Lexes cs ts) :
    Lexes (quotedChars s ++ cs) (.string (some s) :: ts) := by
  intro rest hrest
  have hscan : scanString (s.toList.flatMap escapeChar ++ ['"'] ++ (cs ++ rest)) =
      some (s.toList.map pieceOf, cs ++ rest) := by
    rw [List.append_assoc]
    exact scanString_quoted s.toList (cs ++ rest)
  rw [List.append_assoc, quotedChars, List.cons_append, List.cons_append, tokens_quote hscan,
    joinPieces_map_pieceOf, Option.map_some, String.ofList_toList, hcs rest hrest, Option.map_map]
  rfl

theorem word (hword : ∀ c ∈ cs, isWordChar c = true) (ht : Token.ofWord? cs = some t) :
    Lexes cs [t] := by
  intro rest hrest
  cases cs with
  | nil => cases ht
  | cons c cs =>
    obtain ⟨hc, hcs⟩ := List.forall_mem_cons.mp hword
    have hseparator := mt isWordChar_of_mem_separators (Bool.not_eq_false _ |>.mpr hc)
    simp only [separators, List.mem_cons, List.not_mem_nil, or_false, not_or] at hseparator
    obtain ⟨hspace, htab, hline, hreturn, hopen, hclose, hopen', hclose', hcomma, hcolon, hquote⟩ :=
      hseparator
    rw [List.cons_append, tokens, List.takeWhile_append_of_pos hcs,
      List.dropWhile_append_of_pos hcs, hrest.takeWhile, hrest.dropWhile, List.append_nil, ht]
    simp [isBlank, hspace, htab, hline, hreturn, hopen, hclose, hopen', hclose', hcomma, hcolon,
      hquote, hc]
    cases tokens rest <;> rfl

end Lexes

/-! ## Numbers -/

theorem isWordChar_of_isDigit {c : Char} (h : IsDigit c) : isWordChar c = true := by
  have hdigit : c.isDigit = true := by
    simpa [Char.isDigit, IsDigit, Char.le_def] using h
  simp [isWordChar, Char.isAlphanum, hdigit]

theorem isWordChar_digitChar {d : Nat} (h : d < 10) : isWordChar (digitChar d) = true := by
  revert d
  decide

theorem isWordChar_of_readExponent {c : Char} {cs : List Char} {e : Int} (hc : c = 'e' ∨ c = 'E')
    (h : readExponent cs = some e) : ∀ c' ∈ c :: cs, isWordChar c' = true := by
  refine List.forall_mem_cons.mpr ⟨by rcases hc with rfl | rfl <;> decide, ?_⟩
  unfold readExponent at h
  split at h
  next _ negative digits hsign =>
  have hdigits : ∀ c ∈ digits, isWordChar c = true := by
    cases hn : readDigits decimalDigit? 10 digits with
    | none => simp [hn] at h
    | some n =>
      exact fun c hc => isWordChar_of_isDigit ((readDigits_eq_some_iff.mp hn).isDigit c hc)
  split at hsign <;> cases hsign
  · exact List.forall_mem_cons.mpr ⟨by decide, hdigits⟩
  · exact List.forall_mem_cons.mpr ⟨by decide, hdigits⟩
  · exact hdigits

theorem isWordChar_of_spanDigits {cs : List Char}
    (h : ∀ c ∈ (spanDigits cs).2, isWordChar c = true) : ∀ c ∈ cs, isWordChar c = true := by
  obtain ⟨happend, hlt⟩ := spanDigits_append cs
  rw [← happend, List.forall_mem_append, List.forall_mem_map]
  exact ⟨fun d hd => isWordChar_digitChar (hlt d hd), h⟩

/-- Behind its digits a number ends or has an exponent. -/
theorem isWordChar_of_optionalExponent {cs : List Char} {t t' : NumberText} {f : Int → NumberText}
    (h : (match cs with
      | [] => some t
      | c :: rest => if c = 'e' ∨ c = 'E' then (readExponent rest).map f else none) = some t') :
    ∀ c ∈ cs, isWordChar c = true := by
  split at h
  next => exact List.forall_mem_nil _
  next c rest =>
    split at h
    next hmark =>
      obtain ⟨e, he, -⟩ := Option.map_eq_some_iff.mp h
      exact isWordChar_of_readExponent hmark he
    next => cases h

/-- A number consists of characters of words. -/
theorem isWordChar_of_readNumberText {cs : List Char} {t : NumberText}
    (h : readNumberText cs = some t) : ∀ c ∈ cs, isWordChar c = true := by
  unfold readNumberText at h
  split at h
  next _ negative magnitude hsign =>
  have hcs (hmagnitude : ∀ c ∈ magnitude, isWordChar c = true) : ∀ c ∈ cs, isWordChar c = true := by
    split at hsign <;> cases hsign
    · exact List.forall_mem_cons.mpr ⟨by decide, hmagnitude⟩
    · exact hmagnitude
  refine hcs (isWordChar_of_spanDigits ?_)
  dsimp only at h
  split at h
  next => cases h
  next =>
  split at h
  next _ rest hpoint =>
    rw [hpoint]
    refine List.forall_mem_cons.mpr ⟨by decide, isWordChar_of_spanDigits ?_⟩
    dsimp only at h
    split at h
    next => cases h
    next => exact isWordChar_of_optionalExponent h
  next =>
    split at h
    next => cases h
    next => exact isWordChar_of_optionalExponent h

/-- A number is read from the text that is written of it. -/
def Number.ReadsBack (n : Number) : Prop :=
  (readNumberText n.text.toList).bind (·.toNumber?) = some n

theorem Number.readsBack_integer (n : Int) (lower : -0x8000000000000000 ≤ n)
    (upper : n < 0x10000000000000000) : (integer n lower upper).ReadsBack :=
  readNumber_eq_integer_iff.mpr (isCanonical_iff.mpr rfl)

theorem Number.ReadsBack.lexes {n : Number} (h : n.ReadsBack) :
    Lexes n.text.toList [.number (some n)] := by
  obtain ⟨t, ht, hn⟩ := Option.bind_eq_some_iff.mp h
  refine .word (isWordChar_of_readNumberText ht) ?_
  have hne {cs : List Char} (hcs : readNumberText cs = none) : n.text.toList ≠ cs := by
    rintro rfl
    exact nomatch hcs.symm.trans ht
  -- The text is none of the three other words.
  rw [Token.ofWord?, if_neg (hne (by decide)), if_neg (hne (by decide)), if_neg (hne (by decide)),
    ht, Option.map_some, hn]

/-! ## Values -/

/-- Every number in a value is read from the text that is written of it. -/
def ReadsBack (v : Json) : Prop := ∀ n, IsPart (.number n) v → n.ReadsBack

theorem readsBack_ofInt64 (n : Int64) : (ofInt64 n).ReadsBack := by
  rintro _ ⟨⟩
  exact Number.readsBack_integer _ _ _

theorem readsBack_array_iff {items : List Json} :
    (array items).ReadsBack ↔ ∀ v ∈ items, v.ReadsBack := by
  simp only [ReadsBack, isPart_array_iff]
  grind

theorem readsBack_object_iff {members : List (String × Json)} :
    (object members).ReadsBack ↔ ∀ m ∈ members, m.2.ReadsBack := by
  simp only [ReadsBack, isPart_object_iff]
  grind

mutual

/-- The tokens of a value's text. -/
def toTokens : Json → List Token
  | .null => [.null]
  | .bool b => [.bool b]
  | .number n => [.number (some n)]
  | .string s => [.string (some s)]
  | .array items => .openArray :: itemTokens items ++ [.closeArray]
  | .object members => .openObject :: memberTokens members ++ [.closeObject]

def itemTokens : List Json → List Token
  | [] => []
  | [v] => v.toTokens
  | v :: rest => v.toTokens ++ .comma :: itemTokens rest

def memberTokens : List (String × Json) → List Token
  | [] => []
  | [(name, v)] => .string (some name) :: .colon :: v.toTokens
  | (name, v) :: rest => .string (some name) :: .colon :: v.toTokens ++ .comma :: memberTokens rest

end

mutual

theorem lexes_chars (v : Json) (h : v.ReadsBack) : Lexes v.chars v.toTokens := by
  match v with
  | .null => exact .word (List.all_eq_true.mp (by decide)) rfl
  | .bool true => exact .word (List.all_eq_true.mp (by decide)) rfl
  | .bool false => exact .word (List.all_eq_true.mp (by decide)) rfl
  | .number n => exact (h n .self).lexes
  | .string s =>
    have hquoted := Lexes.nil.quoted s
    rwa [List.append_nil] at hquoted
  | .array items =>
    exact .mark (by decide) (.append_mark (by decide)
      (lexes_itemChars items (readsBack_array_iff.mp h)) .nil)
  | .object members =>
    exact .mark (by decide) (.append_mark (by decide)
      (lexes_memberChars members (readsBack_object_iff.mp h)) .nil)

theorem lexes_itemChars (items : List Json) (h : ∀ v ∈ items, v.ReadsBack) :
    Lexes (itemChars items) (itemTokens items) := by
  match items with
  | [] => exact .nil
  | [v] => exact lexes_chars v (h v List.mem_cons_self)
  | v :: w :: rest =>
    rw [List.forall_mem_cons] at h
    exact .append_mark (by decide) (lexes_chars v h.1) (lexes_itemChars (w :: rest) h.2)

theorem lexes_memberChars (members : List (String × Json)) (h : ∀ m ∈ members, m.2.ReadsBack) :
    Lexes (memberChars members) (memberTokens members) := by
  match members with
  | [] => exact .nil
  | [(name, v)] =>
    exact .quoted name (.mark (by decide) (lexes_chars v (h (name, v) List.mem_cons_self)))
  | (name, v) :: m :: rest =>
    rw [List.forall_mem_cons] at h
    have hv := lexes_chars v h.1
    have hrest := lexes_memberChars (m :: rest) h.2
    have hmember : Lexes (':' :: v.chars ++ ',' :: memberChars (m :: rest))
        (.colon :: v.toTokens ++ .comma :: memberTokens (m :: rest)) :=
      .mark (by decide) (.append_mark (by decide) hv hrest)
    have hquoted := hmember.quoted name
    rw [← List.append_assoc] at hquoted
    exact hquoted

end

/-! ## Reading -/

namespace Reader

variable {stack outer : List Frame} {ts : List Token}

theorem steps_cons_of_step {r r' : Reader} {t : Token} (h : r.step t = some r') :
    r.steps (t :: ts) = r'.steps ts := by
  rw [steps, h, Option.bind_some]

/-- At the start of an array an item is read as anywhere else in it. -/
theorem steps_firstItem (v : Json) (rest : List Json) (outer : List Frame) (ts : List Token) :
    steps ⟨.array [] :: outer, .firstItem⟩ (itemTokens (v :: rest) ++ ts) =
      steps ⟨.array [] :: outer, .value⟩ (itemTokens (v :: rest) ++ ts) := by
  obtain ⟨more, hmore⟩ : ∃ more, itemTokens (v :: rest) = v.toTokens ++ more := by
    cases rest with
    | nil => exact ⟨[], (List.append_nil _).symm⟩
    | cons w rest => exact ⟨_, rfl⟩
  rw [hmore, List.append_assoc]
  cases v <;> rfl

/-- At the start of an object a member is read as anywhere else in it. -/
theorem steps_firstName (m : String × Json) (rest : List (String × Json)) (outer : List Frame)
    (ts : List Token) :
    steps ⟨.object [] none :: outer, .firstName⟩ (memberTokens (m :: rest) ++ ts) =
      steps ⟨.object [] none :: outer, .name⟩ (memberTokens (m :: rest) ++ ts) := by
  cases rest <;> rfl

open Document in
mutual

theorem steps_toTokens (v : Json) (stack : List Frame) (ts : List Token) :
    steps ⟨stack, .value⟩ (v.toTokens ++ ts) = (deliver stack (ofJson v)).steps ts := by
  match v with
  | .null | .bool _ | .number _ | .string _ => rfl
  | .array [] => rfl
  | .array (v :: rest) =>
    have hopen : (⟨stack, .value⟩ : Reader).step .openArray =
      some ⟨.array [] :: stack, .firstItem⟩ := rfl
    rw [toTokens, List.append_assoc, List.cons_append, steps_cons_of_step hopen, steps_firstItem]
    exact steps_itemTokens (v :: rest) (List.cons_ne_nil _ _) [] stack ts
  | .object [] => rfl
  | .object (m :: rest) =>
    have hopen : (⟨stack, .value⟩ : Reader).step .openObject =
      some ⟨.object [] none :: stack, .firstName⟩ := rfl
    rw [toTokens, List.append_assoc, List.cons_append, steps_cons_of_step hopen, steps_firstName]
    exact steps_memberTokens (m :: rest) (List.cons_ne_nil _ _) [] none stack ts

/-- Items are read up to the end of their array. -/
theorem steps_itemTokens (values : List Json) (hne : values ≠ []) (items : List Document)
    (outer : List Frame) (ts : List Token) :
    steps ⟨.array items :: outer, .value⟩ (itemTokens values ++ .closeArray :: ts) =
      (deliver outer (.array (items.reverse ++ ofItems values))).steps ts := by
  match values with
  | [] => exact (hne rfl).elim
  | [v] =>
    rw [itemTokens, steps_toTokens v, ofItems, ofItems, ← List.reverse_cons]
    rfl
  | v :: w :: rest =>
    have hcomma : (deliver (.array items :: outer) (ofJson v)).step .comma =
      some ⟨.array (ofJson v :: items) :: outer, .value⟩ := rfl
    rw [itemTokens.eq_3 v (w :: rest) nofun, List.append_assoc, steps_toTokens v, List.cons_append,
      steps_cons_of_step hcomma, steps_itemTokens (w :: rest) (List.cons_ne_nil _ _),
      List.reverse_cons, List.append_assoc, ofItems]
    rfl

/-- Members are read up to the end of their object. -/
theorem steps_memberTokens (values : List (String × Json)) (hne : values ≠ [])
    (members : List (Option String × Document)) (name : Option String) (outer : List Frame)
    (ts : List Token) :
    steps ⟨.object members name :: outer, .name⟩ (memberTokens values ++ .closeObject :: ts) =
      (deliver outer (.object (members.reverse ++ ofMembers values))).steps ts := by
  have hmember (name' : String) (ts' : List Token) :
      steps ⟨.object members name :: outer, .name⟩ (.string (some name') :: .colon :: ts') =
        steps ⟨.object members (some name') :: outer, .value⟩ ts' := rfl
  match values with
  | [] => exact (hne rfl).elim
  | [(name', v)] =>
    rw [memberTokens, List.cons_append, List.cons_append, hmember, steps_toTokens v, ofMembers,
      ofMembers, ← List.reverse_cons]
    rfl
  | (name', v) :: m :: rest =>
    have hcomma : (deliver (.object members (some name') :: outer) (ofJson v)).step .comma =
      some ⟨.object ((some name', ofJson v) :: members) none :: outer, .name⟩ := rfl
    rw [memberTokens.eq_3 name' v (m :: rest) nofun]
    simp only [List.cons_append, List.append_assoc]
    rw [hmember, steps_toTokens v, steps_cons_of_step hcomma,
      steps_memberTokens (m :: rest) (List.cons_ne_nil _ _), List.reverse_cons, List.append_assoc,
      ofMembers]
    rfl

end

end Reader

/-- A text that was written of a value is read as its document. -/
theorem readDocument_text {v : Json} (h : v.ReadsBack) :
    readDocument v.text = some (.ofJson v) := by
  have htokens : tokens v.chars = some v.toTokens := by
    simpa [tokens] using lexes_chars v h [] .nil
  have hsteps := Reader.steps_toTokens v [] []
  rw [List.append_nil] at hsteps
  simp only [readDocument, text, String.toList_ofList, htokens, Reader.start, hsteps,
    Reader.deliver, Reader.steps, Reader.result?, Option.bind_eq_bind, Option.bind_some]

end PushDelivery.Json
