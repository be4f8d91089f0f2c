import PushDelivery.Json.Reader

/-!
# Texts embedded in texts

The strings of a document were tokens of the text from which it was read, so each of them is shorter
than that text. A text is therefore longer than every text that it embeds, and to read it is to give
its document a value, in which embedded texts are read in the same way.
-/

namespace PushDelivery

/-- A document has a string somewhere among its values. -/
inductive Document.Holds (text : String) : Document → Prop
  | string : Holds text (.string (some text))
  | item {d : Document} {items : List Document} : d ∈ items → Holds text d →
      Holds text (.array items)
  | member {name : Option String} {d : Document} {members : List (Option String × Document)} :
      (name, d) ∈ members → Holds text d → Holds text (.object members)

namespace Json

/-! ## Tokens -/

theorem length_joinPieces_le {pieces : List Piece} {cs : List Char}
    (h : joinPieces pieces = some cs) : cs.length ≤ pieces.length := by
  fun_induction joinPieces pieces generalizing cs with
  | case1 => cases h; exact Nat.le_refl _
  | case2 c rest ih =>
    obtain ⟨cs, hcs, rfl⟩ := Option.map_eq_some_iff.mp h
    simpa using ih hcs
  | case3 u hu l rest hl ih =>
    obtain ⟨cs, hcs, rfl⟩ := Option.map_eq_some_iff.mp h
    have := ih hcs
    simp only [List.length_cons]
    omega
  | case4 | case5 | case6 => cases h
  | case7 u rest _ _ ih =>
    obtain ⟨cs, hcs, rfl⟩ := Option.map_eq_some_iff.mp h
    simpa using ih hcs

/-- A string has at most as many pieces as it has characters before its closing quote. -/
theorem length_pieces_lt {cs rest : List Char} {pieces : List Piece}
    (h : scanString cs = some (pieces, rest)) : pieces.length + rest.length < cs.length := by
  fun_induction scanString cs generalizing pieces rest with
  | case1 | case5 => cases h
  | case2 => cases h; simp
  | case3 a b c d tail ih =>
    obtain ⟨u, -, h⟩ := Option.bind_eq_some_iff.mp h
    obtain ⟨⟨pieces, rest⟩, htail, h⟩ := Option.bind_eq_some_iff.mp h
    cases h
    have := ih htail
    simp only [List.length_cons]
    omega
  | case4 c tail _ ih =>
    obtain ⟨c, -, h⟩ := Option.bind_eq_some_iff.mp h
    obtain ⟨⟨pieces, rest⟩, htail, h⟩ := Option.bind_eq_some_iff.mp h
    cases h
    have := ih htail
    simp only [List.length_cons]
    omega
  | case6 c tail _ _ _ _ ih =>
    obtain ⟨⟨pieces, rest⟩, htail, h⟩ := Option.bind_eq_some_iff.mp h
    cases h
    have := ih htail
    simp only [List.length_cons]
    omega

theorem ofWord?_ne_string {cs : List Char} {text : Option String} :
    Token.ofWord? cs ≠ some (.string text) := by
  intro h
  unfold Token.ofWord? at h
  split at h
  next => cases h
  next =>
    split at h
    next => cases h
    next =>
      split at h
      next => cases h
      next =>
        obtain ⟨t, -, h⟩ := Option.map_eq_some_iff.mp h
        cases h

/-- A string is shorter than the text in which it is a token. -/
theorem length_lt_of_mem_tokens {cs : List Char} {ts : List Token} {text : String}
    (h : tokens cs = some ts) (htext : Token.string (some text) ∈ ts) :
    text.length < cs.length := by
  fun_induction tokens cs generalizing ts with
  | case1 => cases h; cases htext
  | case2 c rest _ ih => exact Nat.lt_succ_of_lt (ih h htext)
  | case3 _ _ ih | case4 _ _ _ ih | case5 _ _ _ _ ih | case6 _ _ _ _ _ ih | case7 _ _ _ _ _ _ ih
    | case8 _ _ _ _ _ _ _ ih =>
    obtain ⟨ts, hts, rfl⟩ := Option.map_eq_some_iff.mp h
    exact Nat.lt_succ_of_lt (ih hts (by simpa using htext))
  | case9 => cases h
  | case10 rest pieces rest' hscan _ _ _ _ _ _ _ ih =>
    obtain ⟨ts, hts, rfl⟩ := Option.map_eq_some_iff.mp h
    have hlength := length_pieces_lt hscan
    rcases List.mem_cons.mp htext with hstring | hmem
    · obtain ⟨cs, hcs, rfl⟩ := Option.map_eq_some_iff.mp (Token.string.inj hstring).symm
      have := length_joinPieces_le hcs
      simp only [String.length_ofList, List.length_cons]
      omega
    · have := ih hts hmem
      simp only [List.length_cons]
      omega
  | case11 c rest _ _ _ _ _ _ _ _ _ ih =>
    obtain ⟨t, ht, h⟩ := Option.bind_eq_some_iff.mp h
    obtain ⟨ts, hts, h⟩ := Option.bind_eq_some_iff.mp h
    cases h
    rcases List.mem_cons.mp htext with hstring | hmem
    · exact (ofWord?_ne_string (hstring ▸ ht)).elim
    · have := ih hts hmem
      have := (List.dropWhile_sublist (l := rest) isWordChar).length_le
      simp only [List.length_cons]
      omega
  | case12 => cases h

/-! ## Documents -/

def Frame.Holds (text : String) : Frame → Prop
  | .array items => ∃ d ∈ items, d.Holds text
  | .object members _ => ∃ m ∈ members, m.2.Holds text

def StackHolds (text : String) : List Frame → Prop
  | [] => False
  | frame :: outer => frame.Holds text ∨ StackHolds text outer

def Phase.Holds (text : String) : Phase → Prop
  | .complete d => d.Holds text
  | _ => False

namespace Reader

/-- A string is somewhere in what has been read. -/
def Holds (text : String) (r : Reader) : Prop := StackHolds text r.stack ∨ r.phase.Holds text

variable {text : String} {r r' : Reader} {t : Token} {ts : List Token} {stack : List Frame}
  {d : Document}

theorem holds_array_iff {items : List Document} :
    (Document.array items.reverse).Holds text ↔ (Frame.array items).Holds text := by
  constructor
  · intro h
    cases h with
    | item hmem h => exact ⟨_, List.mem_reverse.mp hmem, h⟩
  · rintro ⟨d, hmem, h⟩
    exact .item (List.mem_reverse.mpr hmem) h

theorem holds_object_iff {members : List (Option String × Document)} {name : Option String} :
    (Document.object members.reverse).Holds text ↔ (Frame.object members name).Holds text := by
  constructor
  · intro h
    cases h with
    | member hmem h => exact ⟨_, List.mem_reverse.mp hmem, h⟩
  · rintro ⟨⟨_, d⟩, hmem, h⟩
    exact .member (List.mem_reverse.mpr hmem) h

theorem holds_deliver_iff :
    (deliver stack d).Holds text ↔ StackHolds text stack ∨ d.Holds text := by
  unfold deliver
  split
  next => simp [Holds, Phase.Holds]
  next items outer =>
    simp only [Holds, StackHolds, Frame.Holds, Phase.Holds, List.mem_cons, exists_eq_or_imp,
      or_false]
    rw [or_assoc, or_comm]
  next members name outer =>
    simp only [Holds, StackHolds, Frame.Holds, Phase.Holds, List.mem_cons, exists_eq_or_imp,
      or_false]
    rw [or_assoc, or_comm]

theorem Holds.of_beginValue (h : beginValue stack t = some r) (hr : r.Holds text) :
    StackHolds text stack ∨ t = .string (some text) := by
  unfold beginValue at h
  split at h <;> cases h
  case h_4 =>
    rcases holds_deliver_iff.mp hr with hstack | hstring
    · exact .inl hstack
    · cases hstring
      exact .inr rfl
  case h_5 | h_6 => simpa [Holds, StackHolds, Frame.Holds, Phase.Holds] using hr
  all_goals
    refine .inl ((holds_deliver_iff.mp hr).resolve_right ?_)
    rintro ⟨⟩

theorem holds_close_array {items : List Document} {outer : List Frame} {phase : Phase}
    (hr : (deliver outer (.array items.reverse)).Holds text) :
    Holds text ⟨.array items :: outer, phase⟩ := by
  rw [holds_deliver_iff, holds_array_iff] at hr
  exact .inl hr.symm

theorem holds_close_object {members : List (Option String × Document)} {name : Option String}
    {outer : List Frame} {phase : Phase}
    (hr : (deliver outer (.object members.reverse)).Holds text) :
    Holds text ⟨.object members name :: outer, phase⟩ := by
  rw [holds_deliver_iff, holds_object_iff] at hr
  exact .inl hr.symm

/-- What a step adds is the string that it reads. -/
theorem Holds.of_step (h : r.step t = some r') (hr : r'.Holds text) :
    r.Holds text ∨ t = .string (some text) := by
  obtain ⟨stack, phase⟩ := r
  unfold step at h
  split at h
  case h_1 | h_3 => exact (of_beginValue h hr).imp_left .inl
  case h_2 _ _ _ _ _ _ hstack | h_9 _ _ _ _ _ _ hstack =>
    cases h
    cases hstack
    exact .inl (holds_close_array hr)
  case h_4 _ _ _ _ _ _ _ hstack | h_11 _ _ _ _ _ _ _ hstack =>
    cases h
    cases hstack
    exact .inl (holds_close_object hr)
  case h_5 _ _ _ _ _ _ _ _ hstack | h_6 _ _ _ _ _ _ _ _ hstack =>
    cases h
    cases hstack
    exact .inl (hr.imp_right nofun)
  case h_7 =>
    cases h
    exact .inl (hr.imp_right nofun)
  case h_8 _ _ _ _ _ _ hstack | h_10 _ _ _ _ _ _ _ hstack =>
    cases h
    cases hstack
    exact .inl (hr.imp_right nofun)
  case h_12 => cases h

theorem Holds.of_steps (h : r.steps ts = some r') (hr : r'.Holds text) :
    r.Holds text ∨ Token.string (some text) ∈ ts := by
  induction ts generalizing r with
  | nil =>
    cases h
    exact .inl hr
  | cons t ts ih =>
    obtain ⟨r₁, hstep, hsteps⟩ := Option.bind_eq_some_iff.mp h
    rcases ih hsteps with h₁ | hmem
    · exact (of_step hstep h₁).imp_right fun ht => by simp [ht]
    · exact .inr (List.mem_cons_of_mem _ hmem)

end Reader

variable {text s : String} {d : Document}

/-- A text is longer than every string of its document. -/
theorem length_lt_of_readDocument (h : readDocument s = some d) (hd : d.Holds text) :
    text.length < s.length := by
  obtain ⟨ts, hts, h⟩ := Option.bind_eq_some_iff.mp h
  obtain ⟨r, hr, h⟩ := Option.bind_eq_some_iff.mp h
  have hcomplete : r.phase = .complete d := by
    unfold Reader.result? at h
    split at h <;> cases h
    assumption
  have hholds : r.Holds text := by
    refine .inr ?_
    rw [hcomplete]
    exact hd
  rcases hholds.of_steps hr with hstart | hmem
  · rcases hstart with h | h <;> exact h.elim
  · exact length_lt_of_mem_tokens hts hmem

end Json

/-! ## Values -/

namespace Document

variable {f g : String → Option Json}

theorem holds_of_onlyText? {members : List (Option String × Document)} {text : String}
    (h : onlyText? members = some text) : (Document.object members).Holds text := by
  unfold onlyText? at h
  split at h
  next name text' =>
    cases h
    exact .member (List.mem_singleton_self _) .string
  next => cases h

mutual

/-- The value of a document depends on its reader of texts only where it has strings. -/
theorem value?_congr (d : Document) (room : Nat) (h : ∀ text, d.Holds text → f text = g text) :
    d.value? f room = d.value? g room := by
  match d, room with
  | .null, _ | .bool _, _ | .number _, _ | .string _, _ => simp only [value?]
  | .array _, 0 | .object _, 0 => simp only [value?]
  | .array items, room + 1 =>
    simp only [value?]
    rw [itemValues?_congr items room fun d hd text hholds => h text (.item hd hholds)]
  | .object members, room + 1 =>
    simp only [value?]
    have honly : (onlyText? members).bind f = (onlyText? members).bind g := by
      cases honly : onlyText? members with
      | none => rfl
      | some text => exact h text (holds_of_onlyText? honly)
    rw [honly, memberValues?_congr members room fun m hm text hholds => h text (.member hm hholds)]

theorem itemValues?_congr (items : List Document) (room : Nat)
    (h : ∀ d ∈ items, ∀ text, d.Holds text → f text = g text) :
    itemValues? f items room = itemValues? g items room := by
  match items with
  | [] => simp only [itemValues?]
  | d :: rest =>
    simp only [itemValues?]
    rw [value?_congr d room (h d List.mem_cons_self),
      itemValues?_congr rest room fun d hd => h d (List.mem_cons_of_mem _ hd)]

theorem memberValues?_congr (members : List (Option String × Document)) (room : Nat)
    (h : ∀ m ∈ members, ∀ text, m.2.Holds text → f text = g text) :
    memberValues? f members room = memberValues? g members room := by
  match members with
  | [] => simp only [memberValues?]
  | (name, d) :: rest =>
    simp only [memberValues?]
    rw [value?_congr d room (h (name, d) List.mem_cons_self),
      memberValues?_congr rest room fun m hm => h m (List.mem_cons_of_mem _ hm)]

end

end Document

namespace Json

/-- More levels than a text has characters make no difference. -/
theorem readWithin_eq {s : String} {m n : Nat} (hm : s.length < m) (hn : s.length < n) :
    readWithin m s = readWithin n s := by
  induction m generalizing s n with
  | zero => omega
  | succ m ih =>
    obtain ⟨n, rfl⟩ := Nat.exists_eq_succ_of_ne_zero (Nat.ne_of_gt (Nat.zero_lt_of_lt hn))
    rw [readWithin, readWithin]
    refine Option.bind_congr fun d hd => Document.value?_congr d _ fun text hholds => ?_
    have hlength := length_lt_of_readDocument hd hholds
    exact ih (by omega) (by omega)

/-- To read a text is to give its document a value, reading embedded texts in the same way. -/
theorem read_eq (s : String) : read s = (readDocument s).bind (·.value? read depthLimit) := by
  rw [read, readWithin]
  refine Option.bind_congr fun d hd => Document.value?_congr d _ fun text hholds => ?_
  exact readWithin_eq (length_lt_of_readDocument hd hholds) (Nat.lt_succ_self _)

end Json

end PushDelivery
