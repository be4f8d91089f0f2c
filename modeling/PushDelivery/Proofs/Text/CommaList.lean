import Mathlib.Data.List.DropRight
import PushDelivery.Text

/-!
# Comma lists

Trimming leaves no blank at either end of a text, so every entry of a comma list is trimmed, and
none is empty.
-/

namespace PushDelivery.Text

/-- A text that neither begins nor ends with a blank. -/
structure Trimmed (cs : List Char) : Prop where
  head : ∀ c, cs.head? = some c → isBlank c = false
  last : ∀ c, cs.getLast? = some c → isBlank c = false

/-- A text as the entries of a comma list are. -/
structure Tidy (text : String) : Prop where
  nonempty : text ≠ ""
  trimmed : Trimmed text.toList

theorem isBlank_of_head?_dropWhile {cs : List Char} {c : Char}
    (h : (cs.dropWhile isBlank).head? = some c) : isBlank c = false := by
  have := List.head?_dropWhile_not isBlank cs
  rwa [h] at this

theorem trimmed_trim (cs : List Char) : Trimmed (trim cs) := by
  constructor
  case head =>
    intro c hc
    -- What is left of the text after its last character that is no blank begins as before.
    obtain ⟨rest, hrest⟩ : trim cs <+: cs.dropWhile isBlank := List.rdropWhile_prefix ..
    have hhead : (cs.dropWhile isBlank).head? = some c := by
      rw [← hrest, List.head?_append, hc]
      rfl
    exact isBlank_of_head?_dropWhile hhead
  case last =>
    intro c hc
    rw [trim, List.getLast?_reverse] at hc
    exact isBlank_of_head?_dropWhile hc

theorem tidy_of_mem_commaList {text entry : String} (h : entry ∈ commaList text) : Tidy entry := by
  obtain ⟨cs, hcs, rfl⟩ := List.mem_map.mp h
  obtain ⟨hmem, hne⟩ := List.mem_filter.mp hcs
  obtain ⟨segment, -, rfl⟩ := List.mem_map.mp hmem
  constructor
  case nonempty => simpa using hne
  case trimmed =>
    rw [String.toList_ofList]
    exact trimmed_trim segment

end PushDelivery.Text

/-!
## What a comma list writes

The commas of a text cut it into segments. A segment writes the entry that it has between blanks,
and a segment of blanks only writes nothing. Every text writes one list of entries, the one that is
read from it, and every list of entries is written by many texts.
-/

namespace PushDelivery.Text

def AllBlank (cs : List Char) : Prop := ∀ c ∈ cs, isBlank c = true

instance (cs : List Char) : Decidable (AllBlank cs) := decidable_of_iff _ List.all_eq_true

/-- A text with blanks before and after it. -/
inductive Pads (cs : List Char) : List Char → Prop
  | around {before after : List Char} : AllBlank before → AllBlank after →
      Pads cs (before ++ cs ++ after)

/-- A text that can be an entry of a comma list. -/
structure IsEntry (text : String) : Prop extends Tidy text where
  comma : ',' ∉ text.toList

/-- Segments that write entries, in the same order. -/
inductive Writes : List (List Char) → List String → Prop
  | nil : Writes [] []
  | blank {segment : List Char} {segments : List (List Char)} {entries : List String} :
      AllBlank segment → Writes segments entries → Writes (segment :: segments) entries
  | entry {segment : List Char} {segments : List (List Char)} {entry : String}
      {entries : List String} : Pads entry.toList segment → Writes segments entries →
      Writes (segment :: segments) (entry :: entries)

variable {cs segment : List Char} {segments : List (List Char)} {entries : List String}

/-! ## Trimming -/

theorem AllBlank.dropWhile_append (h : AllBlank cs) (rest : List Char) :
    (cs ++ rest).dropWhile isBlank = rest.dropWhile isBlank :=
  List.dropWhile_append_of_pos h

theorem AllBlank.reverse (h : AllBlank cs) : AllBlank cs.reverse :=
  fun c hc => h c (List.mem_reverse.mp hc)

theorem Trimmed.reverse (h : Trimmed cs) : Trimmed cs.reverse where
  head c hc := h.last c (by rwa [List.head?_reverse] at hc)
  last c hc := h.head c (by rwa [List.getLast?_reverse] at hc)

/-- Blanks are dropped up to a text that is trimmed and not empty. -/
theorem Trimmed.dropWhile_append (h : Trimmed cs) (hne : cs ≠ []) (rest : List Char) :
    (cs ++ rest).dropWhile isBlank = cs ++ rest := by
  cases cs with
  | nil => exact absurd rfl hne
  | cons c cs => rw [List.cons_append, List.dropWhile_cons_of_neg (by simp [h.head c rfl])]

theorem trim_of_pads (h : Pads cs segment) (hcs : Trimmed cs) : trim segment = cs := by
  cases h with
  | @around before after hbefore hafter =>
    rw [trim, List.append_assoc, hbefore.dropWhile_append]
    by_cases hne : cs = []
    · subst hne
      rw [List.nil_append, List.dropWhile_eq_nil_iff.mpr hafter]
      rfl
    · have hlast := hcs.reverse.dropWhile_append (by simpa using hne) []
      rw [List.append_nil] at hlast
      rw [hcs.dropWhile_append hne, List.reverse_append, hafter.reverse.dropWhile_append, hlast,
        List.reverse_reverse]

theorem pads_trim (cs : List Char) : Pads (trim cs) cs := by
  have hbefore : AllBlank (cs.takeWhile isBlank) := fun c hc => List.mem_takeWhile_imp hc
  have hafter : AllBlank ((cs.dropWhile isBlank).rtakeWhile isBlank) :=
    fun c hc => List.mem_rtakeWhile_imp hc
  have hcs : cs.takeWhile isBlank ++ trim cs ++ (cs.dropWhile isBlank).rtakeWhile isBlank = cs := by
    have hrest : trim cs ++ (cs.dropWhile isBlank).rtakeWhile isBlank = cs.dropWhile isBlank :=
      List.rdropWhile_append_rtakeWhile ..
    rw [List.append_assoc, hrest, List.takeWhile_append_dropWhile]
  have hpads : Pads (trim cs) _ := .around hbefore hafter
  rwa [hcs] at hpads

/-- Trimming finds the trimmed text to which blanks were added. -/
theorem trim_eq_iff {t : List Char} : trim cs = t ↔ Trimmed t ∧ Pads t cs := by
  constructor
  · rintro rfl
    exact ⟨trimmed_trim cs, pads_trim cs⟩
  · rintro ⟨ht, hpads⟩
    exact trim_of_pads hpads ht

theorem Pads.refl (cs : List Char) : Pads cs cs := by
  have hpads : Pads cs ([] ++ cs ++ []) := .around nofun nofun
  rwa [List.nil_append, List.append_nil] at hpads

theorem trim_eq_self_iff : trim cs = cs ↔ Trimmed cs :=
  trim_eq_iff.trans (and_iff_left (.refl cs))

theorem isEntry_iff {text : String} : IsEntry text ↔
    text ≠ "" ∧ trim text.toList = text.toList ∧ ',' ∉ text.toList := by
  rw [trim_eq_self_iff]
  exact ⟨fun h => ⟨h.nonempty, h.trimmed, h.comma⟩, fun ⟨hne, htrimmed, hcomma⟩ =>
    ⟨⟨hne, htrimmed⟩, hcomma⟩⟩

instance (text : String) : Decidable (IsEntry text) := decidable_of_iff' _ isEntry_iff

theorem pads_nil_iff : Pads [] cs ↔ AllBlank cs := by
  constructor
  · intro h
    cases h with
    | around hbefore hafter =>
      intro c hc
      rw [List.append_nil] at hc
      exact (List.mem_append.mp hc).elim (hbefore c) (hafter c)
  · intro h
    have hpads : Pads [] (cs ++ [] ++ []) := .around h nofun
    rwa [List.append_nil, List.append_nil] at hpads

theorem trim_eq_nil_iff : trim cs = [] ↔ AllBlank cs := by
  rw [trim_eq_iff, pads_nil_iff]
  exact and_iff_right ⟨nofun, nofun⟩

/-! ## Segments -/

theorem splitCommas_eq_splitOn (cs : List Char) : splitCommas cs = cs.splitOn ',' := by
  induction cs with
  | nil => rfl
  | cons c cs ih =>
    rw [splitCommas, List.splitOn_cons_eq_if_modifyHead, ih]
    by_cases hc : c = ','
    · simp [hc]
    · obtain ⟨segment, segments, h⟩ := List.exists_cons_of_ne_nil (List.splitOn_ne_nil ',' cs)
      simp [hc, h]

theorem comma_notMem_of_mem_splitCommas (h : segment ∈ splitCommas cs) : ',' ∉ segment := by
  induction cs generalizing segment with
  | nil =>
    rw [splitCommas, List.mem_singleton] at h
    simp [h]
  | cons c cs ih =>
    rw [splitCommas] at h
    split at h
    next =>
      rcases List.mem_cons.mp h with rfl | h
      · simp
      · exact ih h
    next hc =>
      -- The character joins the first of the other segments.
      split at h
      next =>
        rw [List.mem_singleton] at h
        simpa [h] using Ne.symm hc
      next first others hsplit =>
        rw [hsplit] at ih
        rcases List.mem_cons.mp h with rfl | h
        · simpa [Ne.symm hc] using ih List.mem_cons_self
        · exact ih (List.mem_cons_of_mem _ h)

def entriesOf (segments : List (List Char)) : List String :=
  ((segments.map trim).filter (!·.isEmpty)).map String.ofList

theorem entriesOf_cons_of_blank (h : AllBlank segment) :
    entriesOf (segment :: segments) = entriesOf segments := by
  simp [entriesOf, trim_eq_nil_iff.mpr h]

theorem entriesOf_cons (h : trim segment ≠ []) :
    entriesOf (segment :: segments) = String.ofList (trim segment) :: entriesOf segments := by
  simp [entriesOf, h]

theorem mem_entriesOf_iff {text : String} (h : text ≠ "") :
    text ∈ entriesOf segments ↔ ∃ segment ∈ segments, trim segment = text.toList := by
  have hne : text.toList ≠ [] := by simpa using h
  unfold entriesOf
  constructor
  · intro hmem
    obtain ⟨cs, hcs, rfl⟩ := List.mem_map.mp hmem
    obtain ⟨segment, hsegment, rfl⟩ := List.mem_map.mp (List.mem_filter.mp hcs).1
    exact ⟨segment, hsegment, String.toList_ofList.symm⟩
  · rintro ⟨segment, hsegment, htrim⟩
    have hkept : !(trim segment).isEmpty := by simp [htrim, hne]
    refine List.mem_map.mpr ⟨trim segment, ?_, ?_⟩
    · exact List.mem_filter.mpr ⟨List.mem_map_of_mem hsegment, hkept⟩
    · rw [htrim, String.ofList_toList]

theorem writes_entriesOf (segments : List (List Char)) : Writes segments (entriesOf segments) := by
  induction segments with
  | nil => exact .nil
  | cons segment segments ih =>
    by_cases h : trim segment = []
    · rw [entriesOf_cons_of_blank (trim_eq_nil_iff.mp h)]
      exact .blank (trim_eq_nil_iff.mp h) ih
    · rw [entriesOf_cons h]
      exact .entry (by rw [String.toList_ofList]; exact pads_trim segment) ih

/-- Segments write only one list of tidy entries. -/
theorem Writes.entriesOf (h : Writes segments entries) (hentries : ∀ entry ∈ entries, Tidy entry) :
    Text.entriesOf segments = entries := by
  induction h with
  | nil => rfl
  | blank hblank _ ih => rw [entriesOf_cons_of_blank hblank, ih hentries]
  | @entry segment _ entry _ hpads _ ih =>
    obtain ⟨htidy, hrest⟩ := List.forall_mem_cons.mp hentries
    have htrim : trim segment = entry.toList := trim_of_pads hpads htidy.trimmed
    have hne : trim segment ≠ [] := by
      rw [htrim]
      simpa using htidy.nonempty
    rw [entriesOf_cons hne, ih hrest, htrim, String.ofList_toList]

theorem Writes.of_entries (entries : List String) : Writes (entries.map String.toList) entries := by
  induction entries with
  | nil => exact .nil
  | cons entry entries ih => exact .entry (.refl _) ih

theorem AllBlank.comma_notMem (h : AllBlank cs) : ',' ∉ cs :=
  fun hmem => absurd (h ',' hmem) (by decide)

theorem Writes.comma_notMem (h : Writes segments entries)
    (hentries : ∀ entry ∈ entries, ',' ∉ entry.toList) : ∀ segment ∈ segments, ',' ∉ segment := by
  induction h with
  | nil => exact nofun
  | blank hblank _ ih => exact List.forall_mem_cons.mpr ⟨hblank.comma_notMem, ih hentries⟩
  | entry hpads _ ih =>
    obtain ⟨hentry, hrest⟩ := List.forall_mem_cons.mp hentries
    refine List.forall_mem_cons.mpr ⟨?_, ih hrest⟩
    cases hpads with
    | around hbefore hafter => simp [hbefore.comma_notMem, hafter.comma_notMem, hentry]

/-! ## Comma lists -/

theorem commaList_eq (text : String) : commaList text = entriesOf (text.toList.splitOn ',') := by
  rw [← splitCommas_eq_splitOn]
  rfl

theorem isEntry_of_mem_commaList {text entry : String} (h : entry ∈ commaList text) :
    IsEntry entry where
  toTidy := tidy_of_mem_commaList h
  comma := by
    have hentry := tidy_of_mem_commaList h
    rw [commaList_eq, mem_entriesOf_iff hentry.nonempty] at h
    obtain ⟨segment, hsegment, htrim⟩ := h
    rw [← splitCommas_eq_splitOn] at hsegment
    have hcomma := comma_notMem_of_mem_splitCommas hsegment
    cases (trim_eq_iff.mp htrim).2 with
    | around => exact fun hmem => hcomma (List.mem_append_left _ (List.mem_append_right _ hmem))

/-- The entries of a list are read from every text that writes them. -/
theorem commaList_of_writes {text : String} (htext : text.toList = [','].intercalate segments)
    (hwrites : Writes segments entries) (hentries : ∀ entry ∈ entries, IsEntry entry) :
    commaList text = entries := by
  have htidy : ∀ entry ∈ entries, Tidy entry := fun entry h => (hentries entry h).toTidy
  rw [commaList_eq, htext]
  cases hsegments : segments with
  | nil =>
    subst hsegments
    cases hwrites
    rfl
  | cons segment rest =>
    have hcommas := hwrites.comma_notMem fun entry h => (hentries entry h).comma
    rw [← hsegments, List.splitOn_intercalate ',' hcommas (by simp [hsegments]),
      hwrites.entriesOf htidy]

end PushDelivery.Text
