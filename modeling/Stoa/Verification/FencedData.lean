import Stoa.Verification.AskPrompts

/-! # Fenced data

What is put between the fences has no bracket that could close them. The practice context is
cut where it is too long even without the recent mistakes, and what is cut is no document. -/

namespace Stoa.AskPrompt

open PyText JsonText

/-! ## Brackets -/

/-- Nothing in the text can open or close a tag. -/
def Bracketless (s : Str) : Prop := 60 ∉ s ∧ 62 ∉ s

instance (s : Str) : Decidable (Bracketless s) := inferInstanceAs (Decidable (_ ∧ _))

section

variable {s t : Str}

theorem Bracketless.append (hs : Bracketless s) (ht : Bracketless t) : Bracketless (s ++ t) :=
  ⟨fun h => (List.mem_append.mp h).elim hs.1 ht.1, fun h => (List.mem_append.mp h).elim hs.2 ht.2⟩

theorem Bracketless.cons {c : ℕ} (hc : c ≠ 60 ∧ c ≠ 62) (hs : Bracketless s) : Bracketless (c :: s) :=
  ⟨fun h => (List.mem_cons.mp h).elim (Ne.symm hc.1) hs.1, fun h => (List.mem_cons.mp h).elim (Ne.symm hc.2) hs.2⟩

theorem Bracketless.subset (ht : Bracketless t) (h : s ⊆ t) : Bracketless s :=
  ⟨fun hc => ht.1 (h hc), fun hc => ht.2 (h hc)⟩

theorem bracketless_of_forall (h : ∀ c ∈ s, c ≠ 60 ∧ c ≠ 62) : Bracketless s :=
  ⟨fun hc => (h 60 hc).1 rfl, fun hc => (h 62 hc).2 rfl⟩

theorem Bracketless.ne {c : ℕ} (h : Bracketless s) (hc : c ∈ s) : c ≠ 60 ∧ c ≠ 62 :=
  ⟨fun heq => h.1 (heq ▸ hc), fun heq => h.2 (heq ▸ hc)⟩

/-- Nothing that is escaped has a bracket, whatever it was. -/
theorem escapeFenced_bracketless (isAlnum : ℕ → Bool) (text : Str) : Bracketless (escapeFenced isAlnum text) := by
  refine bracketless_of_forall fun c hc => ?_
  rcases mem_replace hc with hnew | ⟨hc, hgt⟩
  · have hclean : Bracketless (str "&gt;") := by decide
    exact hclean.ne hnew
  · rcases mem_replace hc with hnew | ⟨-, hlt⟩
    · have hclean : Bracketless (str "&lt;") := by decide
      exact hclean.ne hnew
    · exact ⟨hlt, hgt⟩

theorem ofInt_bracketless (n : ℤ) : Bracketless (ofInt n) := by
  refine bracketless_of_forall fun c hc => ?_
  cases n with
  | ofNat n =>
      have hdigit := mem_decimal hc
      omega
  | negSucc n =>
      rcases List.mem_cons.mp hc with rfl | hc
      · decide
      · have hdigit := mem_decimal hc
        omega

theorem join_bracketless {sep : Str} (hsep : Bracketless sep) {parts : List Str} (h : ∀ p ∈ parts, Bracketless p) :
    Bracketless (join sep parts) := by
  refine bracketless_of_forall fun c hc => ?_
  rcases mem_join hc with hc | ⟨p, hp, hc⟩
  · exact hsep.ne hc
  · exact (h p hp).ne hc

end

/-! ## The quote -/

theorem quotePartLabel_bracketless {part : Option QuotePart} {label : Str} (h : quotePartLabel part = some label) :
    Bracketless label := by
  have hnames : ∀ section_ name, QUOTE_PART_NAMES section_ = some name → Bracketless name := by
    rintro ⟨⟩ name ⟨⟩ <;> decide
  unfold quotePartLabel at h
  split at h
  · cases h
  · cases h
    decide
  · obtain ⟨name, hname, rfl⟩ := Option.map_eq_some_iff.mp h
    exact ((hnames _ _ hname).append (by decide)).append (ofInt_bracketless _)
  · cases h

theorem quotePayload_bracketless (isAlnum : ℕ → Bool) (quote : Quote) : Bracketless (quotePayload isAlnum quote) := by
  unfold quotePayload
  refine (Bracketless.append ?_ (by decide)).append (escapeFenced_bracketless ..)
  have hkind := escapeFenced_bracketless isAlnum (quote.kind.take 32)
  split
  · exact (Bracketless.append (by decide) hkind).append (by decide)
  · rename_i label hlabel
    exact (((Bracketless.append (by decide) hkind).append (by decide)).append
      (quotePartLabel_bracketless hlabel)).append (by decide)

/-! ## JSON texts -/

theorem escapeCode_bracketless {c : ℕ} (hc : c ≠ 60 ∧ c ≠ 62) : Bracketless (escapeCode c) := by
  have hhex : ∀ n < 16, hexDigit n ≠ 60 ∧ hexDigit n ≠ 62 := by decide
  unfold escapeCode
  split_ifs with h1 h2 h3 h4 h5 h6 h7 h8
  iterate 7 decide
  · refine bracketless_of_forall fun d hd => ?_
    simp only [List.mem_cons, List.not_mem_nil, or_false] at hd
    rcases hd with rfl | rfl | rfl | rfl | rfl | rfl
    iterate 4 decide
    · exact hhex _ (by omega)
    · exact hhex _ (by omega)
  · exact Bracketless.cons hc (by decide)

theorem escape_bracketless {s : Str} (h : Bracketless s) : Bracketless (escape s) := by
  refine bracketless_of_forall fun c hc => ?_
  obtain ⟨d, hd, hc⟩ := List.mem_flatMap.mp hc
  exact (escapeCode_bracketless (h.ne hd)).ne hc

theorem takeWhile_bracketless (s : Str) : Bracketless (s.takeWhile JsonText.isDigit) := by
  refine bracketless_of_forall fun c hc => ?_
  have hdigit := List.mem_takeWhile_imp hc
  simp only [JsonText.isDigit, Bool.and_eq_true, decide_eq_true_eq] at hdigit
  omega

/-- A number has no bracket. -/
theorem readNumber_bracketless {whole : Bool} {s literal left : Str} (h : readNumber s = some (whole, literal, left)) :
    Bracketless literal := by
  have hempty : Bracketless [] := by decide
  have hminus : Bracketless [45] := by decide
  obtain ⟨w, v, hwhole, -, rfl, -⟩ := readNumber_eq_some.mp h
  have hsign : Bracketless (readSign s).1 := by
    unfold readSign
    split
    · exact hminus
    · exact hempty
  have hw : Bracketless w := by
    unfold readWhole at hwhole
    split at hwhole
    · cases hwhole
      decide
    · split at hwhole
      · cases hwhole
      · cases hwhole
        exact takeWhile_bracketless _
  have hfraction : Bracketless (readFraction v).1 := by
    unfold readFraction
    split
    · split
      · exact hempty
      · exact Bracketless.cons (by decide) (takeWhile_bracketless _)
    · exact hempty
  have hexponent : ∀ s, Bracketless (readExponent s).1 := fun s => by
    unfold readExponent
    split
    · rename_i c t
      split
      · have hexponentSign : Bracketless (readExponentSign t).1 := by
          unfold readExponentSign
          split
          · exact (by decide : Bracketless [43])
          · exact hminus
          · exact hempty
        dsimp only
        split
        · exact hempty
        · refine Bracketless.append (Bracketless.cons ?_ hexponentSign) (takeWhile_bracketless _)
          omega
      · exact hempty
    · exact hempty
  exact ((hsign.append hw).append hfraction).append (hexponent _)

theorem float_bracketless (value : JsonText.Float) : Bracketless value.literal := by
  rcases value.wellFormed with hconstant | hread
  · have hall : ∀ literal ∈ constants, Bracketless literal := by decide
    exact hall _ hconstant
  · exact readNumber_bracketless hread

mutual

/-- No name and no text in the value has a bracket. -/
def Plain : Value → Prop
  | .null => True
  | .bool _ => True
  | .int _ => True
  | .float _ => True
  | .str value => Bracketless value
  | .arr items => PlainItems items
  | .obj members => PlainMembers members

def PlainItems : List Value → Prop
  | [] => True
  | item :: items => Plain item ∧ PlainItems items

def PlainMembers : List (Str × Value) → Prop
  | [] => True
  | (name, value) :: members => (Bracketless name ∧ Plain value) ∧ PlainMembers members

end

mutual

theorem dumps_bracketless {gap : Str} (hgap : Bracketless gap) (value : Value) (h : Plain value) :
    Bracketless (dumps gap value) := by
  cases value with
  | null => exact (by decide : Bracketless (str "null"))
  | bool b =>
      cases b with
      | false => exact (by decide : Bracketless (str "false"))
      | true => exact (by decide : Bracketless (str "true"))
  | int n => exact ofInt_bracketless n
  | float x => exact float_bracketless x
  | str s => exact (Bracketless.cons (by decide) (escape_bracketless h)).append (by decide)
  | arr items => exact (Bracketless.cons (by decide) (dumpsItems_bracketless hgap items h)).append (by decide)
  | obj members => exact (Bracketless.cons (by decide) (dumpsMembers_bracketless hgap members h)).append (by decide)

theorem dumpsItems_bracketless {gap : Str} (hgap : Bracketless gap) (items : List Value) (h : PlainItems items) :
    Bracketless (dumpsItems gap items) := by
  cases items with
  | nil => exact (by decide : Bracketless [])
  | cons item items =>
      have hitem := dumps_bracketless hgap item h.1
      have hitems := dumpsItems_bracketless hgap items h.2
      cases items with
      | nil => exact hitem
      | cons next items => exact (hitem.append (Bracketless.cons (by decide) hgap)).append hitems

theorem dumpsMembers_bracketless {gap : Str} (hgap : Bracketless gap) (members : List (Str × Value))
    (h : PlainMembers members) : Bracketless (dumpsMembers gap members) := by
  cases members with
  | nil => exact (by decide : Bracketless [])
  | cons member members =>
      obtain ⟨name, value⟩ := member
      have hname := escape_bracketless h.1.1
      have hvalue := dumps_bracketless hgap value h.1.2
      have hmembers := dumpsMembers_bracketless hgap members h.2
      have hfirst : Bracketless (34 :: escape name ++ 34 :: 58 :: gap ++ dumps gap value) :=
        ((Bracketless.cons (by decide) hname).append (Bracketless.cons (by decide)
          (Bracketless.cons (by decide) hgap))).append hvalue
      cases members with
      | nil => exact hfirst
      | cons next members => exact (hfirst.append (Bracketless.cons (by decide) hgap)).append hmembers

end

/-! ## The practice context -/

mutual

/-- The keys of every mapping are distinct, and have no brackets. -/
def Stored.Keyed : Stored → Prop
  | .none => True
  | .bool _ => True
  | .text _ => True
  | .decimal _ => True
  | .int _ => True
  | .float _ => True
  | .map entries => (entries.map Prod.fst).Nodup ∧ KeyedEntries entries
  | .list items => KeyedItems items
  | .other _ => True

def KeyedEntries : List (Str × Stored) → Prop
  | [] => True
  | (key, item) :: entries => (Bracketless key ∧ item.Keyed) ∧ KeyedEntries entries

def KeyedItems : List Stored → Prop
  | [] => True
  | item :: items => item.Keyed ∧ KeyedItems items

end

section

variable (isAlnum : ℕ → Bool) (toFloat : ℚ → JsonText.Float)

theorem names_escapedEntries (entries : List (Str × Stored)) :
    (escapedEntries isAlnum toFloat entries).map Prod.fst = entries.map Prod.fst := by
  induction entries with
  | nil => rfl
  | cons entry entries ih =>
      obtain ⟨key, item⟩ := entry
      rw [escapedEntries, List.map_cons, List.map_cons, ih]

mutual

/-- What is escaped has no bracket left, and is a value as JSON has them. -/
theorem escapedTree_plain (item : Stored) (h : item.Keyed) :
    Plain (escapedTree isAlnum toFloat item) ∧ (escapedTree isAlnum toFloat item).Distinct := by
  cases item with
  | none => exact ⟨trivial, trivial⟩
  | bool b => exact ⟨trivial, trivial⟩
  | text s => exact ⟨escapeFenced_bracketless isAlnum s, trivial⟩
  | decimal x =>
      unfold escapedTree
      split
      · exact ⟨trivial, trivial⟩
      · exact ⟨trivial, trivial⟩
  | int n => exact ⟨trivial, trivial⟩
  | float x => exact ⟨trivial, trivial⟩
  | map entries =>
      obtain ⟨hplain, hdistinct⟩ := escapedEntries_plain entries h.2
      exact ⟨hplain, (names_escapedEntries ..).symm ▸ h.1, hdistinct⟩
  | list items => exact escapedItems_plain items h
  | other s => exact ⟨escapeFenced_bracketless isAlnum s, trivial⟩

theorem escapedEntries_plain (entries : List (Str × Stored)) (h : KeyedEntries entries) :
    PlainMembers (escapedEntries isAlnum toFloat entries) ∧ DistinctMembers (escapedEntries isAlnum toFloat entries) := by
  cases entries with
  | nil => exact ⟨trivial, trivial⟩
  | cons entry entries =>
      obtain ⟨key, item⟩ := entry
      obtain ⟨hplain, hdistinct⟩ := escapedTree_plain item h.1.2
      obtain ⟨hplain', hdistinct'⟩ := escapedEntries_plain entries h.2
      exact ⟨⟨⟨h.1.1, hplain⟩, hplain'⟩, hdistinct, hdistinct'⟩

theorem escapedItems_plain (items : List Stored) (h : KeyedItems items) :
    PlainItems (escapedItems isAlnum toFloat items) ∧ DistinctItems (escapedItems isAlnum toFloat items) := by
  cases items with
  | nil => exact ⟨trivial, trivial⟩
  | cons item items =>
      obtain ⟨hplain, hdistinct⟩ := escapedTree_plain item h.1
      obtain ⟨hplain', hdistinct'⟩ := escapedItems_plain items h.2
      exact ⟨⟨hplain, hplain'⟩, hdistinct, hdistinct'⟩

end

end

theorem names_sortMembers (members : List (Str × Value)) :
    (sortMembers members).map Prod.fst = members.map Prod.fst := by
  induction members with
  | nil => rfl
  | cons member members ih =>
      obtain ⟨name, value⟩ := member
      rw [sortMembers, List.map_cons, List.map_cons, ih]

theorem plainMembers_iff {members : List (Str × Value)} :
    PlainMembers members ↔ ∀ m ∈ members, Bracketless m.1 ∧ Plain m.2 := by
  induction members with
  | nil => simp [PlainMembers]
  | cons member members ih =>
      obtain ⟨name, value⟩ := member
      rw [PlainMembers, ih, List.forall_mem_cons]

theorem distinctMembers_iff {members : List (Str × Value)} :
    DistinctMembers members ↔ ∀ m ∈ members, m.2.Distinct := by
  induction members with
  | nil => simp [DistinctMembers]
  | cons member members ih =>
      obtain ⟨name, value⟩ := member
      rw [DistinctMembers, ih, List.forall_mem_cons]

mutual

/-- The order of the names changes nothing of this. -/
theorem sortKeys_plain (value : Value) (h : Plain value ∧ value.Distinct) :
    Plain (sortKeys value) ∧ (sortKeys value).Distinct := by
  cases value with
  | null => exact h
  | bool b => exact h
  | int n => exact h
  | float x => exact h
  | str s => exact h
  | arr items => exact sortItems_plain items h
  | obj members =>
      obtain ⟨hplain, hdistinct⟩ := sortMembers_plain members ⟨h.1, h.2.2⟩
      have hperm := List.perm_insertionSort (fun a b : Str × Value => a.1 ≤ b.1) (sortMembers members)
      refine ⟨plainMembers_iff.mpr fun m hm => plainMembers_iff.mp hplain m (hperm.mem_iff.mp hm), ?_,
        distinctMembers_iff.mpr fun m hm => distinctMembers_iff.mp hdistinct m (hperm.mem_iff.mp hm)⟩
      rw [(hperm.map Prod.fst).nodup_iff, names_sortMembers]
      exact h.2.1

theorem sortItems_plain (items : List Value) (h : PlainItems items ∧ DistinctItems items) :
    PlainItems (sortItems items) ∧ DistinctItems (sortItems items) := by
  cases items with
  | nil => exact h
  | cons item items =>
      obtain ⟨hplain, hdistinct⟩ := sortKeys_plain item ⟨h.1.1, h.2.1⟩
      obtain ⟨hplain', hdistinct'⟩ := sortItems_plain items ⟨h.1.2, h.2.2⟩
      exact ⟨⟨hplain, hplain'⟩, hdistinct, hdistinct'⟩

theorem sortMembers_plain (members : List (Str × Value)) (h : PlainMembers members ∧ DistinctMembers members) :
    PlainMembers (sortMembers members) ∧ DistinctMembers (sortMembers members) := by
  cases members with
  | nil => exact h
  | cons member members =>
      obtain ⟨name, value⟩ := member
      obtain ⟨hplain, hdistinct⟩ := sortKeys_plain value ⟨h.1.1.2, h.2.1⟩
      obtain ⟨hplain', hdistinct'⟩ := sortMembers_plain members ⟨h.1.2, h.2.2⟩
      exact ⟨⟨⟨h.1.1.1, hplain⟩, hplain'⟩, hdistinct, hdistinct'⟩

end

/-- A text is the whole JSON text of a value. -/
structure IsDocument (payload : Str) (value : Value) : Prop where
  written : payload = dumpsSorted value
  read : loads payload = some (sortKeys value)

theorem isDocument_of_written {payload : Str} {value : Value} (h : Plain value ∧ value.Distinct)
    (hwritten : payload = dumpsSorted value) : IsDocument payload value := by
  refine ⟨hwritten, ?_⟩
  rw [hwritten]
  exact loads_dumps (by decide) (sortKeys_plain value h).2

section

variable (isAlnum : ℕ → Bool) (toFloat : ℚ → JsonText.Float)

/-- What may be left out of a context. -/
theorem withoutMistakes_plain {members : List (Str × Value)} (h : Plain (.obj members) ∧ (Value.obj members).Distinct) :
    Plain (.obj (withoutMistakes members)) ∧ (Value.obj (withoutMistakes members)).Distinct := by
  have hsublist : (withoutMistakes members).Sublist members := List.filter_sublist
  refine ⟨plainMembers_iff.mpr fun m hm => plainMembers_iff.mp h.1 m (hsublist.mem hm),
    h.2.1.sublist (hsublist.map Prod.fst),
    distinctMembers_iff.mpr fun m hm => distinctMembers_iff.mp h.2.2 m (hsublist.mem hm)⟩

/-- The context fits, or does so without the recent mistakes. -/
def Fits (context : List (Str × Stored)) : Prop :=
  (dumpsSorted (.obj (escapedContext isAlnum toFloat context))).length ≤ MAX_PRACTICE_CONTEXT_CHARS ∨
    (dumpsSorted (.obj (withoutMistakes (escapedContext isAlnum toFloat context)))).length ≤ MAX_PRACTICE_CONTEXT_CHARS

/-- The payload is a JSON text of the context, with the recent mistakes or without them. -/
def IsContext (context : List (Str × Stored)) : Prop :=
  IsDocument (practiceContextPayload isAlnum toFloat context) (.obj (escapedContext isAlnum toFloat context)) ∨
    IsDocument (practiceContextPayload isAlnum toFloat context)
      (.obj (withoutMistakes (escapedContext isAlnum toFloat context)))

variable {isAlnum toFloat} {context : List (Str × Stored)}

theorem escapedContext_plain (h : (Stored.map context).Keyed) :
    Plain (.obj (escapedContext isAlnum toFloat context)) ∧
      (Value.obj (escapedContext isAlnum toFloat context)).Distinct :=
  escapedTree_plain isAlnum toFloat (.map context) h

theorem practiceContextPayload_bracketless (h : (Stored.map context).Keyed) :
    Bracketless (practiceContextPayload isAlnum toFloat context) := by
  have hwhole : Plain (.obj (escapedContext isAlnum toFloat context)) ∧
      (Value.obj (escapedContext isAlnum toFloat context)).Distinct := escapedContext_plain h
  have hdumps : ∀ value : Value, Plain value ∧ value.Distinct → Bracketless (dumpsSorted value) := fun value hvalue =>
    dumps_bracketless (by decide) _ (sortKeys_plain value hvalue).1
  unfold practiceContextPayload
  extract_lets escaped payload
  split
  · exact (hdumps _ (withoutMistakes_plain hwhole)).subset (List.take_subset ..)
  · exact hdumps _ hwhole

/-- The context is cut into something else exactly where it does not fit. -/
theorem isContext_iff (h : (Stored.map context).Keyed) : IsContext isAlnum toFloat context ↔ Fits isAlnum toFloat context := by
  have hwhole : Plain (.obj (escapedContext isAlnum toFloat context)) ∧
      (Value.obj (escapedContext isAlnum toFloat context)).Distinct := escapedContext_plain h
  unfold IsContext Fits
  by_cases hlong : (dumpsSorted (.obj (escapedContext isAlnum toFloat context))).length > MAX_PRACTICE_CONTEXT_CHARS
  · have hpayload : practiceContextPayload isAlnum toFloat context =
        (dumpsSorted (.obj (withoutMistakes (escapedContext isAlnum toFloat context)))).take
          MAX_PRACTICE_CONTEXT_CHARS := if_pos hlong
    constructor
    · rintro (hdoc | hdoc)
      · have hlength := congrArg List.length (hpayload.symm.trans hdoc.written)
        rw [List.length_take] at hlength
        omega
      · have hlength := congrArg List.length (hpayload.symm.trans hdoc.written)
        rw [List.length_take] at hlength
        exact .inr (by omega)
    · rintro (hfits | hfits)
      · omega
      · refine .inr (isDocument_of_written (withoutMistakes_plain hwhole) ?_)
        rw [hpayload, List.take_of_length_le hfits]
  · have hpayload : practiceContextPayload isAlnum toFloat context =
        dumpsSorted (.obj (escapedContext isAlnum toFloat context)) := if_neg hlong
    exact iff_of_true (.inl (isDocument_of_written hwhole hpayload)) (.inl (not_lt.mp hlong))

end

/-! ## The star map -/

/-- The lines of a star map: a heading for each change of the subject, one for each change of
the topic, and a line of three cells for each star. -/
inductive Lines (isAlnum : ℕ → Bool) : Option Str → Option Str → List Candidate → List Str → Prop where
  | nil (subject topic : Option Str) : Lines isAlnum subject topic [] []
  | star (subject topic : Option Str) (candidate : Candidate) (rest : List Candidate) (subjectLines topicLines : List Str)
      (line : Str) (lines : List Str)
      (hsubject : subjectLines.length = if some candidate.subjectId ≠ subject then 1 else 0)
      (htopic : topicLines.length = if some candidate.topicId ≠ topic then 1 else 0)
      (hcells : splitAt (str " | ") line = [starMapCell isAlnum candidate.ref, starMapCell isAlnum candidate.name,
        starMapCell isAlnum candidate.state])
      (hrest : Lines isAlnum (some candidate.subjectId) (some candidate.topicId) rest lines) :
      Lines isAlnum subject topic (candidate :: rest) (subjectLines ++ topicLines ++ line :: lines)

section

variable (isAlnum : ℕ → Bool)

theorem isSpace_of_isLineBreak {c : ℕ} (h : isLineBreak c = true) : PyText.isSpace c = true := by
  simp only [isLineBreak, Bool.or_eq_true, Bool.and_eq_true, decide_eq_true_eq, beq_iff_eq] at h
  simp only [PyText.isSpace, Bool.or_eq_true, Bool.and_eq_true, decide_eq_true_eq, beq_iff_eq]
  omega

/-- A cell has single blanks between its words, no bar and no bracket. -/
theorem mem_starMapCell {text : Str} {c : ℕ} (h : c ∈ starMapCell isAlnum text) :
    isLineBreak c = false ∧ c ≠ 124 ∧ c ≠ 60 ∧ c ≠ 62 := by
  rcases mem_join h with hblank | ⟨w, hw, hc⟩
  · cases List.mem_singleton.mp hblank
    decide
  · obtain ⟨hmem, hspace⟩ := (mem_splitWords hw).2 c hc
    have hbracket : Bracketless (replace 124 (str "/") (escapeFenced isAlnum text)) := bracketless_of_forall fun d hd => by
      rcases mem_replace hd with hnew | ⟨hin, -⟩
      · cases List.mem_singleton.mp hnew
        decide
      · exact (escapeFenced_bracketless isAlnum text).ne hin
    refine ⟨?_, ?_, hbracket.ne hmem⟩
    · by_contra hbreak
      rw [isSpace_of_isLineBreak (by simpa using hbreak)] at hspace
      cases hspace
    · rcases mem_replace hmem with hnew | ⟨-, hne⟩
      · cases List.mem_singleton.mp hnew
        decide
      · exact hne

theorem no_separator {a s : Str} (ha : 124 ∉ a) (hs : s.head? ≠ some 124) (q : Str) (hq : q ≠ []) (hsuffix : q <:+ a) :
    ¬ str " | " <+: q ++ s := by
  intro hbegins
  obtain ⟨x, q, rfl⟩ := List.exists_cons_of_ne_nil hq
  have hsecond : [124, 32] <+: q ++ s := (List.cons_prefix_cons.mp hbegins).2
  cases q with
  | nil =>
      obtain ⟨t, ht⟩ := hsecond
      rw [List.nil_append] at ht
      exact hs (by rw [← ht]; rfl)
  | cons y q =>
      have hy : 124 = y := (List.cons_prefix_cons.mp hsecond).1
      exact ha (hsuffix.subset (by simp [hy]))

/-- A line of three cells is split into them again. -/
theorem splitAt_starLine (candidate : Candidate) :
    splitAt (str " | ") (starLine isAlnum candidate) = [starMapCell isAlnum candidate.ref,
      starMapCell isAlnum candidate.name, starMapCell isAlnum candidate.state] := by
  have hbar : ∀ text, 124 ∉ starMapCell isAlnum text := fun text h => (mem_starMapCell isAlnum h).2.1 rfl
  have hpiece : ∀ text s : Str, splitAt (str " | ") (starMapCell isAlnum text ++ (str " | " ++ s)) =
      starMapCell isAlnum text :: splitAt (str " | ") s := fun text s => by
    have hhead : (str " | " ++ s).head? ≠ some 124 := (by decide : some 32 ≠ some 124)
    rw [splitAt, splitFrom_append (no_separator (hbar text) hhead), splitFrom_sep (by decide)]
    simp
  have hlast : ∀ text, splitAt (str " | ") (starMapCell isAlnum text) = [starMapCell isAlnum text] := fun text => by
    have hend := splitFrom_append (s := []) (no_separator (hbar text) (by decide)) []
    rw [List.append_nil, List.append_nil] at hend
    rw [splitAt, hend, splitFrom, List.reverse_reverse]
  unfold starLine
  rw [join, join, join, List.append_assoc, hpiece, List.append_assoc, hpiece, hlast]

theorem mem_topicRefs {candidates : List Candidate} {ref : Str × Str} (h : ref ∈ topicRefs candidates) :
    ∃ n, ref.2 = str "t" ++ decimal n := by
  unfold topicRefs at h
  have hall : ∀ (candidates : List Candidate) (refs : List (Str × Str)), (∀ r ∈ refs, ∃ n, r.2 = str "t" ++ decimal n) →
      ∀ r ∈ candidates.foldl (fun refs candidate =>
        if candidate.topicId ∈ refs.map Prod.fst then refs
        else refs ++ [(candidate.topicId, str "t" ++ decimal (refs.length + 1))]) refs,
        ∃ n, r.2 = str "t" ++ decimal n := fun candidates => by
    induction candidates with
    | nil => exact fun refs hrefs => hrefs
    | cons candidate candidates ih =>
        intro refs hrefs
        refine ih _ fun r hr => ?_
        dsimp only at hr
        split at hr
        · exact hrefs r hr
        · rcases List.mem_append.mp hr with hr | hr
          · exact hrefs r hr
          · cases List.mem_singleton.mp hr
            exact ⟨_, rfl⟩
  exact hall candidates [] (fun r hr => by cases hr) ref h

/-- A line of the star map has no bracket, and does not end before its end. -/
structure IsLine (line : Str) : Prop where
  nonempty : line ≠ []
  unbroken : ∀ c ∈ line, isLineBreak c = false
  bracketless : Bracketless line

theorem isLine_of_parts {front cell : Str} (hne : front ≠ []) (hfront : ∀ c ∈ front, isLineBreak c = false ∧ c ≠ 60 ∧ c ≠ 62)
    (hcell : ∀ c ∈ cell, isLineBreak c = false ∧ c ≠ 60 ∧ c ≠ 62) : IsLine (front ++ cell) where
  nonempty := by simp [hne]
  unbroken c hc := ((List.mem_append.mp hc).elim (hfront c) (hcell c)).1
  bracketless := bracketless_of_forall fun c hc => ((List.mem_append.mp hc).elim (hfront c) (hcell c)).2

theorem starMapCell_part (text : Str) : ∀ c ∈ starMapCell isAlnum text, isLineBreak c = false ∧ c ≠ 60 ∧ c ≠ 62 :=
  fun _ hc => ⟨(mem_starMapCell isAlnum hc).1, (mem_starMapCell isAlnum hc).2.2⟩

theorem isLine_starMapLines {refs : List (Str × Str)} (hrefs : ∀ ref ∈ refs, ∃ n, ref.2 = str "t" ++ decimal n)
    {subject topic : Option Str} {candidates : List Candidate} {line : Str}
    (h : line ∈ starMapLines isAlnum refs subject topic candidates) : IsLine line := by
  induction candidates generalizing subject topic with
  | nil => cases h
  | cons candidate rest ih =>
      rw [starMapLines, List.mem_append, List.mem_append] at h
      rcases h with (hsubject | htopic) | hstar
      · split at hsubject
        · rw [List.mem_singleton.mp hsubject]
          exact isLine_of_parts (by decide) (by decide) (starMapCell_part isAlnum _)
        · cases hsubject
      · split at htopic
        · rw [List.mem_singleton.mp htopic]
          have hfront : ∀ ref : Str, (ref = [] ∨ ∃ n, ref = str "t" ++ decimal n) →
              ∀ c ∈ str "## " ++ ref ++ str " | ", isLineBreak c = false ∧ c ≠ 60 ∧ c ≠ 62 := by
            rintro ref (rfl | ⟨n, rfl⟩)
            · decide
            · intro c hc
              simp only [List.mem_append] at hc
              rcases hc with (hc | hc | hc) | hc
              · exact (by decide : ∀ c ∈ str "## ", isLineBreak c = false ∧ c ≠ 60 ∧ c ≠ 62) c hc
              · exact (by decide : ∀ c ∈ str "t", isLineBreak c = false ∧ c ≠ 60 ∧ c ≠ 62) c hc
              · have hdigit := mem_decimal hc
                refine ⟨?_, by omega, by omega⟩
                by_contra hbreak
                simp only [isLineBreak, Bool.not_eq_false, Bool.or_eq_true, Bool.and_eq_true, decide_eq_true_eq,
                  beq_iff_eq] at hbreak
                omega
              · exact (by decide : ∀ c ∈ str " | ", isLineBreak c = false ∧ c ≠ 60 ∧ c ≠ 62) c hc
          refine isLine_of_parts (by simp [str]) (hfront _ ?_) (starMapCell_part isAlnum _)
          cases hfind : refs.find? fun ref => ref.1 = candidate.topicId with
          | none => exact .inl rfl
          | some ref => exact .inr (hrefs ref (List.mem_of_find?_eq_some hfind))
        · cases htopic
      · rcases List.mem_cons.mp hstar with rfl | hrest
        · unfold starLine
          rw [join, join, join, ← List.append_assoc]
          refine isLine_of_parts (by simp [str]) (fun c hc => ?_) (starMapCell_part isAlnum _)
          have hbar : ∀ c ∈ str " | ", isLineBreak c = false ∧ c ≠ 60 ∧ c ≠ 62 := by decide
          simp only [List.mem_append] at hc
          rcases hc with (hc | hc) | hc | hc
          · exact starMapCell_part isAlnum _ c hc
          · exact hbar c hc
          · exact starMapCell_part isAlnum _ c hc
          · exact hbar c hc
        · exact ih hrest

theorem starMapLines_lines (refs : List (Str × Str)) (subject topic : Option Str) (candidates : List Candidate) :
    Lines isAlnum subject topic candidates (starMapLines isAlnum refs subject topic candidates) := by
  induction candidates generalizing subject topic with
  | nil => exact .nil subject topic
  | cons candidate rest ih =>
      refine .star subject topic candidate rest _ _ _ _ ?_ ?_ (splitAt_starLine isAlnum candidate) (ih _ _)
      · split <;> rfl
      · split <;> rfl

theorem starMapPayload_lines (candidates : List Candidate) :
    Lines isAlnum none none candidates (splitLines (starMapPayload isAlnum candidates)) := by
  have hsplit : splitLines (starMapPayload isAlnum candidates) =
      starMapLines isAlnum (topicRefs candidates) none none candidates := splitLines_join fun line hline =>
    have hline := isLine_starMapLines isAlnum (fun _ h => mem_topicRefs h) hline
    ⟨hline.nonempty, hline.unbroken⟩
  rw [hsplit]
  exact starMapLines_lines ..

theorem starMapPayload_bracketless (candidates : List Candidate) : Bracketless (starMapPayload isAlnum candidates) :=
  join_bracketless (by decide) fun _ hline => (isLine_starMapLines isAlnum (fun _ h => mem_topicRefs h) hline).bracketless

end

/-! ## All of it -/

section

variable (isAlnum : ℕ → Bool) (toFloat : ℚ → JsonText.Float) (quote : Quote) (context : List (Str × Stored))
  (candidates : List Candidate)

/-- What is fenced stays inside of its fence, and can be read there. -/
structure FencedWell : Prop where
  quotePlain : Bracketless (quotePayload isAlnum quote)
  contextPlain : Bracketless (practiceContextPayload isAlnum toFloat context)
  starMapPlain : Bracketless (starMapPayload isAlnum candidates)
  document : IsContext isAlnum toFloat context
  lines : Lines isAlnum none none candidates (splitLines (starMapPayload isAlnum candidates))

/-- All of this holds exactly where the context fits, with the recent mistakes or without them. -/
theorem fencedWell_iff (hkeyed : (Stored.map context).Keyed) :
    FencedWell isAlnum toFloat quote context candidates ↔ Fits isAlnum toFloat context :=
  ⟨fun h => (isContext_iff hkeyed).mp h.document, fun h => ⟨quotePayload_bracketless isAlnum quote,
    practiceContextPayload_bracketless hkeyed, starMapPayload_bracketless isAlnum candidates,
    (isContext_iff hkeyed).mpr h, starMapPayload_lines isAlnum candidates⟩⟩

end

/-! ## Two contexts -/

namespace FencedSample

open MessagesSample

def quote : Quote := ⟨str "<b>", str "answer", some ⟨.steps, .int 1⟩⟩

/-- The exercise, which is all that the context has. -/
def context (exercise : Str) : List (Str × Stored) := [(str "exercise", .text exercise)]

def candidates : List Candidate :=
  [⟨str "k1", str "unit", str "Sets | <maps>", str "mathematics", str "sets", str "Sets", str "ready"⟩]

theorem context_keyed (exercise : Str) : (Stored.map (context exercise)).Keyed :=
  ⟨List.nodup_singleton _, ⟨by decide, trivial⟩, trivial⟩

/-- A text of sevens. -/
def sevens (n : ℕ) : Str := List.replicate n 55

theorem subFrom_sevens (n : ℕ) (c : Regex.Cursor) (hc : c.rest = sevens n) :
    (INJECTION_RE isAlnum).subFrom (str "[removed]") n c = sevens n := by
  induction n generalizing c with
  | zero => exact hc
  | succ n ih =>
      obtain ⟨passed, rest, group⟩ := c
      change rest = 55 :: sevens n at hc
      subst hc
      -- No pattern begins with a seven.
      change 55 :: (INJECTION_RE isAlnum).subFrom (str "[removed]") n ⟨55 :: passed, sevens n, []⟩ = 55 :: sevens n
      rw [ih _ rfl]

theorem escapeFenced_sevens (n : ℕ) : escapeFenced isAlnum (sevens n) = sevens n := by
  have hreplace : ∀ (old : ℕ) (new : Str), old ≠ 55 → replace old new (sevens n) = sevens n := fun old new hne => by
    unfold replace sevens
    induction n with
    | zero => rfl
    | succ n ih =>
        rw [List.replicate_succ, List.flatMap_cons, ih, if_neg (Ne.symm hne)]
        rfl
  have hscrub : scrubInjections isAlnum (sevens n) = sevens n := by
    unfold scrubInjections Regex.sub
    rw [subFrom_sevens _ _ (by simp [Regex.Cursor.start, sevens])]
    simp [sevens]
  rw [escapeFenced, hscrub, hreplace 38 _ (by decide), hreplace 60 _ (by decide), hreplace 62 _ (by decide)]

theorem length_sevens (n : ℕ) :
    (dumpsSorted (.obj (escapedContext isAlnum toFloat (context (sevens n))))).length = n + 16 := by
  have hescape : escape (sevens n) = sevens n := by
    unfold escape sevens
    induction n with
    | zero => rfl
    | succ n ih =>
        rw [List.replicate_succ, List.flatMap_cons, ih]
        rfl
  change (123 :: (34 :: escape (str "exercise") ++ 34 :: 58 :: str " " ++
    (34 :: escape (escapeFenced isAlnum (sevens n)) ++ [34])) ++ [125]).length = n + 16
  rw [escapeFenced_sevens, hescape]
  have hname : (escape (str "exercise")).length = 8 := by decide
  simp only [List.length_cons, List.length_append, hname, sevens, List.length_replicate, List.length_nil]
  have hblank : (str " ").length = 1 := by decide
  omega

end FencedSample

/-- A short exercise. -/
theorem fencedWell_short : FencedWell MessagesSample.isAlnum MessagesSample.toFloat FencedSample.quote
    (FencedSample.context (str "1 < 2?")) FencedSample.candidates :=
  (fencedWell_iff _ _ _ _ _ (FencedSample.context_keyed _)).mpr (.inl (by decide +kernel))

/-- An exercise that is too long, and has no mistakes that could be left out. -/
theorem fenced_cut : ¬ FencedWell MessagesSample.isAlnum MessagesSample.toFloat FencedSample.quote
    (FencedSample.context (FencedSample.sevens 4000)) FencedSample.candidates := by
  intro h
  have hfits := (isContext_iff (FencedSample.context_keyed _)).mp h.document
  have hlength := FencedSample.length_sevens 4000
  have hsame : withoutMistakes (escapedContext MessagesSample.isAlnum MessagesSample.toFloat
      (FencedSample.context (FencedSample.sevens 4000))) =
      escapedContext MessagesSample.isAlnum MessagesSample.toFloat
        (FencedSample.context (FencedSample.sevens 4000)) := rfl
  unfold Fits at hfits
  rw [hsame, hlength] at hfits
  exact absurd hfits (by decide)

end Stoa.AskPrompt
