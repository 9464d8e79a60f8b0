import Mathlib.Data.List.Dedup
import Mathlib.Data.List.TakeWhile
import Stoa.Model.Figure

/-! # What an accepted figure holds

A figure is accepted for what the parser reads and stored for what is written. Where no part of it is
literal text, no name is qualified and no reference is padded, the two agree, and only there. -/

namespace Stoa.Figure

open PyText

/-! ## Tags are read in one way -/

section

/-- Two runs of one kind of character, each with another kind after it. -/
theorem run_unique {α : Type*} {p : α → Prop} {a b x y : List α} (ha : ∀ c ∈ a, p c) (hb : ∀ c ∈ b, p c)
    (hx : ∀ c ∈ x.head?, ¬ p c) (hy : ∀ c ∈ y.head?, ¬ p c) (h : a ++ x = b ++ y) : a = b ∧ x = y := by
  induction a generalizing b with
  | nil =>
      cases b with
      | nil => exact ⟨rfl, h⟩
      | cons d b =>
          have hd : x.head? = some d := by simpa using congrArg List.head? h
          exact absurd (hb d List.mem_cons_self) (hx d hd)
  | cons c a ih =>
      cases b with
      | nil =>
          have hc : y.head? = some c := by simpa using (congrArg List.head? h).symm
          exact absurd (ha c List.mem_cons_self) (hy c hc)
      | cons d b =>
          obtain ⟨rfl, hrest⟩ := List.cons.inj h
          obtain ⟨rfl, hxy⟩ := ih (fun c hc => ha c (List.mem_cons_of_mem _ hc))
            (fun c hc => hb c (List.mem_cons_of_mem _ hc)) hrest
          exact ⟨rfl, hxy⟩

variable {c : ℕ} {x y after after' : Str} {a b : Attribute} {tag tag' : Tag}

theorem not_isNameChar_of_isBlank (h : isBlank c = true) : isNameChar c = false := by
  simp only [isBlank, decide_eq_true_eq] at h
  rcases h with rfl | rfl | rfl | rfl <;> decide

/-- What a tag ends with: a slash or the closing bracket. -/
def EndsTag (x : Str) : Prop := x.head? = some 62 ∨ x.head? = some 47

theorem EndsTag.head (h : EndsTag x) (hc : c ∈ x.head?) : isNameChar c = false ∧ isBlank c = false := by
  rw [Option.mem_def] at hc
  rcases h with h | h
  · obtain rfl := Option.some.inj (h.symm.trans hc)
    decide
  · obtain rfl := Option.some.inj (h.symm.trans hc)
    decide

theorem head_append_of_ne_nil {s : Str} (h : s ≠ []) : (s ++ x).head? = s.head? := by
  cases s with
  | nil => exact absurd rfl h
  | cons d s => rfl

/-- After blanks that may be missing there is no character of a name but where the next part begins with one. -/
theorem blanks_head {blanks : Str} (hblanks : ∀ c ∈ blanks, isBlank c = true)
    (hx : ∀ c ∈ x.head?, isNameChar c = false) (hc : c ∈ (blanks ++ x).head?) : isNameChar c = false := by
  cases blanks with
  | nil => exact hx c hc
  | cons d blanks =>
      obtain rfl : d = c := by simpa using hc
      exact not_isNameChar_of_isBlank (hblanks d List.mem_cons_self)

theorem Attribute.render_append (a : Attribute) (x : Str) : a.render ++ x =
    a.before ++ (a.name ++ (a.beforeEquals ++ (61 :: (a.afterEquals ++ (a.quote :: (a.raw ++ (a.quote :: x))))))) := by
  simp [Attribute.render]

theorem Attribute.WellFormed.name_head (h : a.WellFormed) (hc : c ∈ (a.name ++ x).head?) : isNameChar c = true := by
  rw [head_append_of_ne_nil h.name.1] at hc
  exact h.name.2 c (List.mem_of_mem_head? hc)

theorem Attribute.WellFormed.name_not_blank (h : a.WellFormed) (hc : c ∈ (a.name ++ x).head?) :
    ¬ isBlank c = true := by
  intro hblank
  have := h.name_head hc
  rw [not_isNameChar_of_isBlank hblank] at this
  cases this

theorem Attribute.render_unique (ha : a.WellFormed) (hb : b.WellFormed) (h : a.render ++ x = b.render ++ y) :
    a = b ∧ x = y := by
  rw [Attribute.render_append, Attribute.render_append] at h
  obtain ⟨hbefore, h⟩ := run_unique ha.before.2 hb.before.2 (fun _ => ha.name_not_blank) (fun _ => hb.name_not_blank) h
  have hequals : ∀ c ∈ (61 :: x : Str).head?, isNameChar c = false := by
    rintro _ ⟨⟩
    rfl
  have hspaces : ∀ {a : Attribute}, a.WellFormed → (∀ c ∈ a.beforeEquals, isBlank c = true) ∧
      ∀ c ∈ a.afterEquals, isBlank c = true := fun h =>
    ⟨fun c hc => h.spaces c (List.mem_append_left _ hc), fun c hc => h.spaces c (List.mem_append_right _ hc)⟩
  have hname : ∀ {a : Attribute} {x : Str}, a.WellFormed →
      ∀ c ∈ (a.beforeEquals ++ (61 :: x)).head?, ¬ isNameChar c = true := by
    intro a x ha c hc
    rw [blanks_head (hspaces ha).1 (x := 61 :: x) (by rintro _ ⟨⟩; rfl) hc]
    nofun
  obtain ⟨hname, h⟩ := run_unique ha.name.2 hb.name.2 (hname ha) (hname hb) h
  have hnone : ∀ {d : ℕ} {x : Str}, isBlank d = false → ∀ c ∈ (d :: x).head?, ¬ isBlank c = true := by
    rintro d x hd _ ⟨⟩
    simp [hd]
  obtain ⟨hbeforeEquals, h⟩ := run_unique (hspaces ha).1 (hspaces hb).1 (hnone rfl) (hnone rfl) h
  have hquote : ∀ {a : Attribute}, a.WellFormed → isBlank a.quote = false := by
    intro a ha
    rcases ha.quote with h | h <;> rw [h] <;> rfl
  obtain ⟨hafterEquals, h⟩ := run_unique (hspaces ha).2 (hspaces hb).2 (hnone (hquote ha)) (hnone (hquote hb))
    (List.cons.inj h).2
  obtain ⟨hquotes, h⟩ := List.cons.inj h
  rw [← hquotes] at h
  obtain ⟨hraw, h⟩ := run_unique (p := fun c => c ≠ a.quote) (fun c hc => (ha.raw c hc).2)
    (fun c hc => hquotes ▸ (hb.raw c hc).2) (by rintro _ ⟨⟩; simp) (by rintro _ ⟨⟩; simp) h
  refine ⟨?_, (List.cons.inj h).2⟩
  cases a
  cases b
  simp_all

/-- By induction on the attributes: blanks are followed by a name where one is left, and by the end
of the tag where none is. -/
theorem attributes_unique {as bs : List Attribute} (has : ∀ a ∈ as, a.WellFormed) (hbs : ∀ b ∈ bs, b.WellFormed)
    (hafter : ∀ c ∈ after, isBlank c = true) (hafter' : ∀ c ∈ after', isBlank c = true) (hx : EndsTag x) (hy : EndsTag y)
    (h : as.flatMap Attribute.render ++ (after ++ x) = bs.flatMap Attribute.render ++ (after' ++ y)) :
    as = bs ∧ after = after' ∧ x = y := by
  have hend : ∀ {x : Str}, EndsTag x → ∀ c ∈ x.head?, ¬ isBlank c = true := by
    intro x hx c hc
    simp [(hx.head hc).2]
  have hmixed : ∀ {b : Attribute} {after x z : Str}, b.WellFormed → (∀ c ∈ after, isBlank c = true) → EndsTag x →
      after ++ x ≠ b.render ++ z := by
    intro b after x z hb hafter hx h
    rw [Attribute.render_append] at h
    obtain ⟨-, h⟩ := run_unique hafter hb.before.2 (hend hx) (fun _ => hb.name_not_blank) h
    obtain ⟨c, hc⟩ : ∃ c, c ∈ x.head? := by
      rcases hx with hx | hx
      · exact ⟨_, hx⟩
      · exact ⟨_, hx⟩
    have hname := (hx.head hc).1
    rw [h] at hc
    rw [hb.name_head hc] at hname
    cases hname
  induction as generalizing bs with
  | nil =>
      cases bs with
      | nil =>
          obtain ⟨hafters, hxy⟩ := run_unique hafter hafter' (hend hx) (hend hy) h
          exact ⟨rfl, hafters, hxy⟩
      | cons b bs =>
          rw [List.flatMap_nil, List.nil_append, List.flatMap_cons, List.append_assoc] at h
          exact absurd h (hmixed (hbs b List.mem_cons_self) hafter hx)
  | cons a as ih =>
      cases bs with
      | nil =>
          rw [List.flatMap_nil, List.nil_append, List.flatMap_cons, List.append_assoc] at h
          exact absurd h.symm (hmixed (has a List.mem_cons_self) hafter' hy)
      | cons b bs =>
          rw [List.flatMap_cons, List.flatMap_cons, List.append_assoc, List.append_assoc] at h
          obtain ⟨rfl, hnext⟩ := Attribute.render_unique (has a List.mem_cons_self) (hbs b List.mem_cons_self) h
          obtain ⟨rfl, hrest⟩ := ih (fun a ha => has a (List.mem_cons_of_mem _ ha))
            (fun b hb => hbs b (List.mem_cons_of_mem _ hb)) hnext
          exact ⟨rfl, hrest⟩

theorem Tag.WellFormed.name_end (h : tag.WellFormed) (hx : EndsTag x)
    (hc : c ∈ (tag.attributes.flatMap Attribute.render ++ (tag.after ++ x)).head?) : ¬ isNameChar c = true := by
  cases hattributes : tag.attributes with
  | nil =>
      rw [hattributes, List.flatMap_nil, List.nil_append] at hc
      rw [blanks_head h.after (fun c hc => (hx.head hc).1) hc]
      nofun
  | cons a as =>
      have ha := (h.attributes a (hattributes ▸ List.mem_cons_self)).before
      rw [hattributes, List.flatMap_cons, List.append_assoc, Attribute.render_append, head_append_of_ne_nil ha.1] at hc
      rw [not_isNameChar_of_isBlank (ha.2 c (List.mem_of_mem_head? hc))]
      nofun

theorem Tag.render_unique (ht : tag.WellFormed) (ht' : tag'.WellFormed) (hx : EndsTag x) (hy : EndsTag y)
    (h : tag.render ++ x = tag'.render ++ y) : tag = tag' := by
  simp only [Tag.render, List.append_assoc] at h
  obtain ⟨hname, h⟩ := run_unique ht.name.2 ht'.name.2 (fun _ => ht.name_end hx) (fun _ => ht'.name_end hy) h
  obtain ⟨hattributes, hafter, -⟩ := attributes_unique ht.attributes ht'.attributes ht.after ht'.after hx hy h
  cases tag
  cases tag'
  simp_all

end

/-! ## What an accepted figure may hold -/

section

/-- The attribute is a listed one, and its value refers to nothing but the figure itself. -/
def Attribute.Allowed (ids : List Str) (a : Attribute) : Prop :=
  a.name ∈ ATTRIBUTES ∧ (a.name ≠ str "aria-label" → needsCare (decode a.raw) = true →
    ∃ id ∈ ids, decode a.raw = str "url(#" ++ id ++ str ")")

def Tag.Allowed (ids : List Str) (tag : Tag) : Prop :=
  tag.name ∈ ELEMENTS ∧ ∀ a ∈ tag.attributes, a.Allowed ids

/-- A comment, or a tag of a listed element. -/
def Token.Allowed (ids : List Str) : Token → Prop
  | .comment _ => True
  | .opening tag => tag.Allowed ids
  | .empty tag => tag.Allowed ids
  | .closing name _ => name ∈ ELEMENTS
  | _ => False

def StartsAllowed (ids : List Str) (s : Str) : Prop :=
  ∃ t : Token, t.WellFormed ∧ t.Allowed ids ∧ t.render <+: s

/-- A reader that takes every `<` for markup meets only what is allowed. -/
def HoldsOnlyAllowed (ids : List Str) (svg : Str) : Prop :=
  ∀ s, (60 :: s) <:+ svg → StartsAllowed ids (60 :: s)

/-- The tags that hold attributes. -/
def tagsOf (tokens : List Token) : List Tag := tokens.filterMap fun
  | .opening tag => some tag
  | .empty tag => some tag
  | _ => none

/-- No literal section, no other markup inside of a comment, no qualified name, no declared prefix and no
blanks around a reference. -/
structure WrittenPlainly (ids : List Str) (tokens : List Token) : Prop where
  sections : ∀ body, .cdata body ∉ tokens
  comments : ∀ before body after, tokens = before ++ .comment body :: after → ∀ s, (60 :: s) <:+ body →
    StartsAllowed ids (60 :: s ++ (str "-->" ++ render after))
  names : ∀ tag ∈ tagsOf tokens, 58 ∉ tag.name
  prefixes : ∀ tag ∈ tagsOf tokens, ∀ a ∈ tag.attributes, a.declares = none
  references : ∀ tag ∈ tagsOf tokens, ∀ a ∈ tag.attributes, a.name ≠ str "aria-label" →
    needsCare (decode a.raw) = true → PyText.strip (decode a.raw) = decode a.raw

end

/-! ## What the check says of what is written -/

section

variable {lib : Library} {svg s : Str} {ids : List Str} {tokens : List Token} {elements : List Element} {tag : Tag}
  {a : Attribute} {scope outer : Scope} {element : Element}

theorem figureIssues_eq_nil (h : figureIssues lib svg = []) : hasForbiddenText svg = false ∧
    ∃ tokens elements, lib.parse svg = some tokens ∧ resolve [] tokens = some elements ∧
      ∀ element ∈ elements, elementIssues lib.isAlnum (idsOf elements) element = [] := by
  unfold figureIssues at h
  split at h
  · cases h
  · split at h
    · cases h
    · split at h
      · cases h
      next hforbidden =>
        refine ⟨by simpa using hforbidden, ?_⟩
        cases hparse : lib.parse svg with
        | none =>
            simp [fromstring, hparse] at h
        | some tokens =>
            cases hresolve : resolve [] tokens with
            | none =>
                simp [fromstring, hparse, hresolve] at h
            | some elements =>
                simp only [fromstring, hparse, Option.bind_some, hresolve, List.dedup_eq_nil, List.append_eq_nil_iff,
                  List.flatMap_eq_nil_iff] at h
                exact ⟨tokens, elements, rfl, hresolve, h.2⟩

/-- Every tag is read in a scope that has what the first scope has and every tag keeps. -/
theorem resolve_reads {P : Scope → Prop} (hinitial : P .initial) {scopes : List Scope} (hscopes : ∀ scope ∈ scopes, P scope)
    (hextend : ∀ tag ∈ tagsOf tokens, ∀ scope, P scope → P (scope.extend tag.attributes))
    (h : resolve scopes tokens = some elements) (htag : tag ∈ tagsOf tokens) :
    ∃ scope, P scope ∧ ∃ element ∈ elements, (scope.extend tag.attributes).element tag = some element := by
  have hhead : ∀ scopes : List Scope, (∀ scope ∈ scopes, P scope) → P (scopes.head?.getD .initial) := by
    intro scopes hscopes
    cases scopes with
    | nil => exact hinitial
    | cons scope scopes => exact hscopes scope List.mem_cons_self
  induction tokens generalizing scopes elements with
  | nil => cases htag
  | cons t tokens ih =>
      have hskip : tagsOf (t :: tokens) = tagsOf tokens → resolve scopes (t :: tokens) = resolve scopes tokens →
          ∃ scope, P scope ∧ ∃ element ∈ elements, (scope.extend tag.attributes).element tag = some element := by
        intro htags hresolve
        rw [htags] at htag hextend
        exact ih hscopes hextend (hresolve ▸ h) htag
      cases t with
      | text raw => exact hskip rfl rfl
      | comment body => exact hskip rfl rfl
      | cdata body => exact hskip rfl rfl
      | instruction body => exact hskip rfl rfl
      | doctype body => exact hskip rfl rfl
      | opening first =>
          simp only [resolve, Option.bind_eq_bind, Option.bind_eq_some_iff, Option.pure_def] at h
          obtain ⟨element, helement, rest, hrest, heq⟩ := h
          cases heq
          have hfirst := hextend first List.mem_cons_self _ (hhead scopes hscopes)
          rcases List.mem_cons.mp htag with rfl | htag
          · exact ⟨_, hhead scopes hscopes, element, List.mem_cons_self, helement⟩
          · obtain ⟨scope, hscope, element', hmem, hread⟩ := ih (List.forall_mem_cons.mpr ⟨hfirst, hscopes⟩)
              (fun tag htag => hextend tag (List.mem_cons_of_mem _ htag)) hrest htag
            exact ⟨scope, hscope, element', List.mem_cons_of_mem _ hmem, hread⟩
      | empty first =>
          simp only [resolve, Option.bind_eq_bind, Option.bind_eq_some_iff, Option.pure_def] at h
          obtain ⟨element, helement, rest, hrest, heq⟩ := h
          cases heq
          rcases List.mem_cons.mp htag with rfl | htag
          · exact ⟨_, hhead scopes hscopes, element, List.mem_cons_self, helement⟩
          · obtain ⟨scope, hscope, element', hmem, hread⟩ := ih hscopes
              (fun tag htag => hextend tag (List.mem_cons_of_mem _ htag)) hrest htag
            exact ⟨scope, hscope, element', List.mem_cons_of_mem _ hmem, hread⟩
      | closing name after =>
          have htails : ∀ scope ∈ scopes.tail, P scope := fun scope hscope => hscopes scope (List.mem_of_mem_tail hscope)
          exact ih htails hextend h htag

/-- A closing tag has the name of a tag that was opened. -/
theorem Balanced.closing {opened : List Str} {name after : Str} (h : Balanced opened tokens)
    (hmem : .closing name after ∈ tokens) : name ∈ opened ∨ ∃ tag ∈ tagsOf tokens, tag.name = name := by
  induction tokens generalizing opened with
  | nil => cases hmem
  | cons t tokens ih =>
      have hskip : tagsOf (t :: tokens) = tagsOf tokens → Balanced opened tokens → .closing name after ≠ t →
          name ∈ opened ∨ ∃ tag ∈ tagsOf (t :: tokens), tag.name = name := by
        intro htags h hne
        rw [htags]
        exact ih h ((List.mem_cons.mp hmem).resolve_left hne)
      cases t with
      | text raw => exact hskip rfl h nofun
      | comment body => exact hskip rfl h nofun
      | cdata body => exact hskip rfl h nofun
      | instruction body => exact hskip rfl h nofun
      | doctype body => exact hskip rfl h nofun
      | opening tag =>
          rcases @ih (tag.name :: opened) h ((List.mem_cons.mp hmem).resolve_left nofun) with hname | ⟨tag', htag', hname⟩
          · rcases List.mem_cons.mp hname with rfl | hname
            · exact .inr ⟨tag, List.mem_cons_self, rfl⟩
            · exact .inl hname
          · exact .inr ⟨tag', List.mem_cons_of_mem _ htag', hname⟩
      | empty tag =>
          rcases @ih opened h ((List.mem_cons.mp hmem).resolve_left nofun) with hname | ⟨tag', htag', hname⟩
          · exact .inl hname
          · exact .inr ⟨tag', List.mem_cons_of_mem _ htag', hname⟩
      | closing name' after' =>
          obtain ⟨outer, rfl, h⟩ := h
          rcases List.mem_cons.mp hmem with heq | hmem
          · cases heq
            exact .inl List.mem_cons_self
          · rcases ih h hmem with hname | htag
            · exact .inl (List.mem_cons_of_mem _ hname)
            · exact .inr htag

theorem takeWhile_append_of_notMem {d : ℕ} {x y : Str} (h : d ∉ x) : (x ++ d :: y).takeWhile (· ≠ d) = x := by
  rw [List.takeWhile_append_of_pos fun c hc => by simpa using fun heq : c = d => h (heq ▸ hc)]
  simp

theorem splitName_of_notMem {name : Str} (h : 58 ∉ name) : splitName name = (none, name) := by
  have hwhole : name.takeWhile (· ≠ 58) = name :=
    List.takeWhile_eq_self_iff.mpr fun c hc => by simpa using fun heq : c = 58 => h (heq ▸ hc)
  unfold splitName
  rw [hwhole, List.drop_length]

theorem splitTag_of_head {name : Str} (h : name.head? ≠ some 123) : splitTag name = ([], name) := by
  unfold splitTag
  split
  · simp at h
  · rfl

/-- A name that is split into an SVG name has the SVG namespace and is that name. -/
theorem splitTag_fixName {space name second : Str} (first : Str) (hhead : name.head? ≠ some 123) (hsecond : 125 ∉ second)
    (hfirst : first ≠ []) (h : splitTag (fixName space name) = (first, second)) :
    space = first ∧ name = second := by
  unfold fixName at h
  split at h
  · rw [splitTag_of_head hhead] at h
    exact absurd (congrArg Prod.fst h).symm hfirst
  · rw [show [123] ++ space ++ [125] ++ name = 123 :: (space ++ 125 :: name) by simp] at h
    simp only [splitTag, Prod.mk.injEq] at h
    obtain ⟨hspace, hname⟩ := h
    by_cases hmem : 125 ∈ space
    · -- The namespace holds the bracket that ends it, so the rest keeps the one that was added.
      exfalso
      obtain ⟨before, after, hsplit, hbefore⟩ := List.eq_append_cons_of_mem hmem
      rw [hsplit, List.append_assoc, List.cons_append, takeWhile_append_of_notMem hbefore, List.drop_left,
        List.tail_cons] at hname
      exact hsecond (hname ▸ List.mem_append_right _ List.mem_cons_self)
    · rw [takeWhile_append_of_notMem hmem] at hspace hname
      rw [List.drop_left, List.tail_cons] at hname
      exact ⟨hspace, hname⟩

theorem IsName.head {name : Str} (h : IsName name) : name.head? ≠ some 123 := by
  intro hhead
  have := h.2 123 (List.mem_of_mem_head? hhead)
  revert this
  decide

theorem localReference_eq_some {isAlnum : ℕ → Bool} {value id : Str} (h : localReference isAlnum value = some id) :
    value = str "url(#" ++ id ++ str ")" := by
  unfold localReference at h
  split at h
  next hparts =>
    obtain ⟨⟨rest, rfl⟩, hlast⟩ := hparts
    have hdrop : (str "url(#" ++ rest).drop 5 = rest := rfl
    rw [hdrop] at h
    have hrest : rest ≠ [] := by
      rintro rfl
      revert hlast
      decide
    have hend : rest.getLast? = some 41 := by
      rw [List.getLast?_append] at hlast
      rwa [List.getLast?_eq_some_getLast hrest] at hlast ⊢
    have hid : rest.dropLast = id := by
      split at h
      · cases h
      next hcons =>
        split at h
        · rw [hcons]
          exact Option.some.inj h
        · cases h
    rw [← hid, List.append_assoc, show str ")" = [41] from rfl, List.dropLast_append_getLast? _ hend]
  · cases h

end

/-! ## Accepted figures -/

section

variable {isAlnum : ℕ → Bool} {ids : List Str} {tag : Tag} {a : Attribute} {scope : Scope} {element : Element}

theorem needsCare_namespace : needsCare SVG_NAMESPACE = false := by decide

theorem elementIssues_eq_nil (h : elementIssues isAlnum ids element = []) :
    (splitTag element.tag).1 = SVG_NAMESPACE ∧ (splitTag element.tag).2 ∈ ELEMENTS ∧
      ∀ entry ∈ element.attrib, attributeIssues isAlnum ids entry = [] := by
  unfold elementIssues at h
  dsimp only at h
  split at h
  · cases h
  next hname =>
    rw [not_or, not_not, not_not] at hname
    exact ⟨hname.1, hname.2, by simpa using h⟩

theorem attributeIssues_eq_nil {entry : Str × Str} (h : attributeIssues isAlnum ids entry = []) :
    (splitTag entry.1).1 = [] ∧ (splitTag entry.1).2 ∈ ATTRIBUTES ∧
      refersOut isAlnum (splitTag entry.1).2 entry.2 ids = false := by
  unfold attributeIssues at h
  dsimp only at h
  split at h
  · cases h
  next hname =>
    rw [not_or, not_not, not_not] at hname
    split at h
    · cases h
    next href => exact ⟨hname.1, hname.2, by simpa using href⟩

theorem refersOut_eq_false {name value : Str} (h : refersOut isAlnum name value ids = false)
    (hname : name ≠ str "aria-label") (hcare : needsCare value = true) :
    ∃ id ∈ ids, PyText.strip value = str "url(#" ++ id ++ str ")" := by
  unfold refersOut at h
  rw [if_neg (by simp [hname, hcare])] at h
  split at h
  · cases h
  next id hid => exact ⟨id, by simpa using h, localReference_eq_some hid⟩

theorem notMem_of_mem_ELEMENTS {name : Str} (h : name ∈ ELEMENTS) : 58 ∉ name ∧ 125 ∉ name := by
  revert name
  decide

theorem notMem_of_mem_ATTRIBUTES {name : Str} (h : name ∈ ATTRIBUTES) : 58 ∉ name := by
  revert name
  decide

/-- Only the prefix of XML itself is bound. -/
def Scope.Plain (scope : Scope) : Prop := scope.prefixes = Scope.initial.prefixes

theorem Scope.Plain.extend (h : scope.Plain) (hprefixes : ∀ a ∈ tag.attributes, a.declares = none) :
    (scope.extend tag.attributes).Plain := by
  have hnone : tag.attributes.filterMap (fun a => a.declares.map fun declared => (declared, decode a.raw)) = [] :=
    List.filterMap_eq_nil_iff.mpr fun a ha => by rw [hprefixes a ha]; rfl
  unfold Scope.Plain Scope.extend
  dsimp only
  rw [hnone, List.nil_append]
  exact h

theorem exists_of_mapM {α β : Type} {f : α → Option β} {xs : List α} {ys : List β} (h : xs.mapM f = some ys) {x : α}
    (hx : x ∈ xs) : ∃ y ∈ ys, f x = some y := by
  induction xs generalizing ys with
  | nil => cases hx
  | cons x' xs ih =>
      simp only [List.mapM_cons, Option.bind_eq_bind, Option.bind_eq_some_iff, Option.pure_def, Option.some.injEq] at h
      obtain ⟨y, hy, rest, hrest, rfl⟩ := h
      rcases List.mem_cons.mp hx with rfl | hx
      · exact ⟨y, List.mem_cons_self, hy⟩
      · obtain ⟨y', hy', heq⟩ := ih hrest hx
        exact ⟨y', List.mem_cons_of_mem _ hy', heq⟩

/-- The prefix that XML binds has a namespace, so a qualified attribute is not a listed one. -/
theorem Scope.Plain.unqualified {name key : Str} (h : scope.Plain) (hname : IsName name)
    (hkey : scope.attributeName name = some key) (hspace : (splitTag key).1 = []) : splitTag key = ([], name) := by
  unfold Scope.attributeName at hkey
  split at hkey
  next second hsplit =>
    have hsecond : second = name := by
      unfold splitName at hsplit
      split at hsplit
      · exact (Prod.mk.inj hsplit).2.symm
      · cases hsplit
    rw [← Option.some.inj hkey, hsecond, splitTag_of_head hname.head]
  next first second hsplit =>
    rw [h, Option.map_eq_some_iff] at hkey
    obtain ⟨space, hlookup, rfl⟩ := hkey
    have hspace' : space = str "http://www.w3.org/XML/1998/namespace" := by
      by_cases hfirst : first = str "xml"
      · subst hfirst
        exact (Option.some.inj hlookup).symm
      · simp [Scope.initial, hfirst] at hlookup
    subst hspace'
    rw [fixName, if_neg (by decide)] at hspace
    cases hspace

/-- The default namespace of an accepted tag is the one of SVG, and so is what the tag declares as it. -/
theorem Scope.element_allowed (hwf : tag.WellFormed) (hscope : (scope.extend tag.attributes).Plain)
    (hname : 58 ∉ tag.name) (hprefixes : ∀ a ∈ tag.attributes, a.declares = none)
    (hread : (scope.extend tag.attributes).element tag = some element) (h : elementIssues isAlnum ids element = []) :
    tag.name ∈ ELEMENTS ∧ ∀ a ∈ tag.attributes, a.name ∈ ATTRIBUTES ∧
      (a.name ≠ str "aria-label" → needsCare (decode a.raw) = true →
        ∃ id ∈ ids, PyText.strip (decode a.raw) = str "url(#" ++ id ++ str ")") := by
  simp only [Scope.element, Option.bind_eq_bind, Option.bind_eq_some_iff, Option.pure_def, Option.some.injEq] at hread
  obtain ⟨fixed, hfixed, attrib, hattrib, rfl⟩ := hread
  obtain ⟨hspace, helement, hattributes⟩ := elementIssues_eq_nil h
  rw [Scope.elementName, splitName_of_notMem hname] at hfixed
  cases hfixed
  obtain ⟨hdefault, hlocal⟩ := splitTag_fixName SVG_NAMESPACE hwf.name.head (notMem_of_mem_ELEMENTS helement).2
    (by decide) (Prod.ext hspace rfl)
  refine ⟨hlocal ▸ helement, fun a ha => ?_⟩
  have hdeclares := hprefixes a ha
  by_cases hxmlns : a.name = str "xmlns"
  · -- The first declaration of the default namespace is the only one.
    have hfind : tag.attributes.find? (fun a => a.name = str "xmlns") = some a := by
      cases hfound : tag.attributes.find? (fun a => a.name = str "xmlns") with
      | none => exact absurd (List.find?_eq_none.mp hfound a ha) (by simp [hxmlns])
      | some b =>
          have hb := List.find?_some hfound
          have hb : b.name = str "xmlns" := of_decide_eq_true hb
          rw [List.inj_on_of_nodup_map hwf.unique (List.mem_of_find?_eq_some hfound) ha (hb.trans hxmlns.symm)]
    have hvalue : decode a.raw = SVG_NAMESPACE := by
      rw [← hdefault]
      unfold Scope.extend
      dsimp only
      rw [hfind]
      rfl
    refine ⟨by rw [hxmlns]; decide, fun _ hcare => ?_⟩
    rw [hvalue, needsCare_namespace] at hcare
    cases hcare
  · have hdeclaration : a ∈ tag.attributes.filter fun a => !a.isDeclaration :=
      List.mem_filter.mpr ⟨ha, by simp [Attribute.isDeclaration, hxmlns, hdeclares]⟩
    obtain ⟨entry, hentry, hkey⟩ := exists_of_mapM hattrib hdeclaration
    obtain ⟨key, hresolved, rfl⟩ := Option.map_eq_some_iff.mp hkey
    obtain ⟨hnone, hlisted, hrefers⟩ := attributeIssues_eq_nil (hattributes _ hentry)
    have hsplit := hscope.unqualified (hwf.attributes a ha).name hresolved hnone
    dsimp only at hlisted hrefers
    rw [hsplit] at hlisted hrefers
    exact ⟨hlisted, refersOut_eq_false hrefers⟩

end

/-! ## Where markup begins -/

section

variable {svg s x rest : Str} {ids : List Str} {tokens : List Token} {t : Token} {tag : Tag} {a : Attribute}

theorem render_append (before after : List Token) : render (before ++ after) = render before ++ render after :=
  List.flatMap_append

theorem render_cons (t : Token) (after : List Token) : render (t :: after) = t.render ++ render after := rfl

theorem suffix_render (t : Token) (before after : List Token) :
    t.render ++ render after <:+ render (before ++ t :: after) := ⟨render before, by rw [render_append, render_cons]⟩

theorem suffix_append_cases {d : ℕ} {y : Str} (h : (d :: s) <:+ x ++ y) :
    (∃ rest, (d :: rest) <:+ x ∧ d :: s = d :: rest ++ y) ∨ (d :: s) <:+ y := by
  obtain ⟨p, hp⟩ := h
  rcases List.append_eq_append_iff.mp hp with ⟨rest, hx, hs⟩ | ⟨rest, -, hy⟩
  · cases rest with
    | nil => exact .inr ⟨[], by rw [List.nil_append, hs, List.nil_append]⟩
    | cons c rest =>
        obtain ⟨rfl, -⟩ := List.cons.inj hs
        exact .inl ⟨rest, ⟨p, hx.symm⟩, hs⟩
  · exact .inr ⟨rest, hy.symm⟩

/-- Every `<` of a document stands in one of its tokens. -/
theorem exists_token (h : (60 :: s) <:+ render tokens) : ∃ before t after rest,
    tokens = before ++ t :: after ∧ (60 :: rest) <:+ t.render ∧ 60 :: s = 60 :: rest ++ render after := by
  induction tokens with
  | nil => simp [render] at h
  | cons t tokens ih =>
      rw [render_cons] at h
      rcases suffix_append_cases h with ⟨rest, ht, heq⟩ | h
      · exact ⟨[], t, tokens, rest, rfl, ht, heq⟩
      · obtain ⟨before, t', after, rest, rfl, ht, heq⟩ := ih h
        exact ⟨t :: before, t', after, rest, rfl, ht, heq⟩

theorem isNameChar_ne {c : ℕ} (h : isNameChar c = true) : c ≠ 60 := by
  rintro rfl
  revert h
  decide

theorem isBlank_ne {c : ℕ} (h : isBlank c = true) : c ≠ 60 := by
  rintro rfl
  revert h
  decide

theorem Attribute.WellFormed.notMem (h : a.WellFormed) : 60 ∉ a.render := by
  have hquote : a.quote ≠ 60 := by
    rcases h.quote with h | h <;> rw [h] <;> decide
  simp only [Attribute.render, List.mem_append, List.mem_singleton, not_or]
  exact ⟨⟨⟨⟨⟨⟨⟨fun hc => isBlank_ne (h.before.2 _ hc) rfl, fun hc => isNameChar_ne (h.name.2 _ hc) rfl⟩,
    fun hc => isBlank_ne (h.spaces _ (List.mem_append_left _ hc)) rfl⟩, by decide⟩,
    fun hc => isBlank_ne (h.spaces _ (List.mem_append_right _ hc)) rfl⟩, Ne.symm hquote⟩,
    fun hc => (h.raw _ hc).1 rfl⟩, Ne.symm hquote⟩

theorem Tag.WellFormed.notMem (h : tag.WellFormed) : 60 ∉ tag.render := by
  simp only [Tag.render, List.mem_append, List.mem_flatMap, not_or, not_exists, not_and]
  exact ⟨⟨fun hc => isNameChar_ne (h.name.2 _ hc) rfl, fun a ha => (h.attributes a ha).notMem⟩,
    fun hc => isBlank_ne (h.after _ hc) rfl⟩

/-- There is one `<` in a tag: the one it begins with. -/
theorem eq_of_suffix_of_notMem (h : (60 :: rest) <:+ 60 :: x) (hx : 60 ∉ x) : rest = x := by
  rcases List.suffix_cons_iff.mp h with h | h
  · exact (List.cons.inj h).2
  · exact absurd (h.subset List.mem_cons_self) hx

theorem suffix_comment {body : Str} (h : (60 :: rest) <:+ (Token.comment body).render) :
    60 :: rest = (Token.comment body).render ∨ ∃ s, (60 :: s) <:+ body ∧ 60 :: rest = 60 :: s ++ str "-->" := by
  have hrender : (Token.comment body).render = 60 :: (str "!--" ++ (body ++ str "-->")) := by
    rw [Token.render, List.append_assoc]
    rfl
  rw [hrender] at h ⊢
  rcases List.suffix_cons_iff.mp h with h | h
  · exact .inl h
  · right
    rcases suffix_append_cases h with ⟨inner, hinner, -⟩ | h
    · exact absurd (hinner.subset List.mem_cons_self) (by decide)
    · rcases suffix_append_cases h with h | h
      · exact h
      · exact absurd (h.subset List.mem_cons_self) (by decide)

theorem beginsWith_append (word y : Str) : beginsWith word (word ++ y) = true := by
  induction word with
  | nil => cases y <;> rfl
  | cons l word ih => simp [beginsWith, AskPrompt.sameLetter, ih]

theorem hasForbiddenText_of_suffix {word : Str} (hword : word ∈ FORBIDDEN_TEXT) (h : word ++ x <:+ svg) :
    hasForbiddenText svg = true :=
  List.any_eq_true.mpr ⟨_, List.mem_tails _ _ |>.mpr h, List.any_eq_true.mpr ⟨word, hword, beginsWith_append word x⟩⟩

theorem mem_tagsOf (h : tag ∈ tagsOf tokens) : .opening tag ∈ tokens ∨ .empty tag ∈ tokens := by
  obtain ⟨t, ht, htag⟩ := List.mem_filterMap.mp h
  cases t with
  | opening first =>
      cases htag
      exact .inl ht
  | empty first =>
      cases htag
      exact .inr ht
  | _ => cases htag

theorem Tag.WellFormed.render_cons (h : tag.WellFormed) : ∃ c name, tag.render = c :: name ∧ isNameChar c = true := by
  obtain ⟨hne, hname⟩ := h.name
  cases hcons : tag.name with
  | nil => exact absurd hcons hne
  | cons c name => exact ⟨c, _, by rw [Tag.render, hcons]; rfl, hname c (hcons ▸ List.mem_cons_self)⟩

/-- What starts as a tag starts as no other tag. -/
theorem Tag.allowed_of_starts (hwf : tag.WellFormed) (hx : EndsTag x) (h : StartsAllowed ids (60 :: (tag.render ++ x))) :
    tag.Allowed ids := by
  obtain ⟨t, ht, hallowed, y, hy⟩ := h
  obtain ⟨c, name, hrender, hc⟩ := hwf.render_cons
  have hsecond : ∀ {d : ℕ} {y : Str}, isNameChar d = false → 60 :: d :: y ≠ 60 :: (tag.render ++ x) := by
    intro d y hd heq
    rw [hrender] at heq
    obtain ⟨rfl, -⟩ := List.cons.inj (List.cons.inj heq).2
    rw [hd] at hc
    cases hc
  cases t with
  | comment body => exact absurd hy (hsecond rfl)
  | closing name after => exact absurd hy (hsecond rfl)
  | opening tag' =>
      have heq : tag'.render ++ (62 :: y) = tag.render ++ x := by
        rw [Token.render, List.append_assoc, List.append_assoc] at hy
        exact (List.cons.inj hy).2
      rw [← Tag.render_unique ht hwf (.inl rfl) hx heq]
      exact hallowed
  | empty tag' =>
      have heq : tag'.render ++ (47 :: 62 :: y) = tag.render ++ x := by
        rw [Token.render, List.append_assoc, List.append_assoc] at hy
        exact (List.cons.inj hy).2
      rw [← Tag.render_unique ht hwf (.inr rfl) hx heq]
      exact hallowed
  | _ => cases hallowed

/-- A literal section is neither a comment nor a tag. -/
theorem not_startsAllowed_cdata : ¬ StartsAllowed ids (str "<![CDATA[" ++ x) := by
  rintro ⟨t, ht, hallowed, y, hy⟩
  have htag : ∀ {tag : Tag} {y : Str}, tag.WellFormed → 60 :: (tag.render ++ y) ≠ str "<![CDATA[" ++ x := by
    intro tag y hwf heq
    obtain ⟨c, name, hrender, hc⟩ := hwf.render_cons
    rw [hrender] at heq
    obtain ⟨rfl, -⟩ := List.cons.inj (List.cons.inj heq).2
    revert hc
    decide
  cases t with
  | comment body => cases hy
  | closing name after => cases hy
  | opening tag =>
      rw [Token.render, List.append_assoc, List.append_assoc] at hy
      exact htag ht hy
  | empty tag =>
      rw [Token.render, List.append_assoc, List.append_assoc] at hy
      exact htag ht hy
  | _ => cases hallowed

end

/-! ## The stored text and the parsed one -/

section

variable {svg : Str} {ids : List Str} {tokens : List Token} {elements : List Element} {tag : Tag} {isAlnum : ℕ → Bool}

theorem HoldsOnlyAllowed.tag_allowed (h : HoldsOnlyAllowed ids (render tokens)) (hwf : ∀ t ∈ tokens, t.WellFormed)
    (htag : tag ∈ tagsOf tokens) : tag.Allowed ids := by
  have hmem : (.opening tag ∈ tokens ∨ .empty tag ∈ tokens) := mem_tagsOf htag
  rcases hmem with hmem | hmem
  · obtain ⟨before, after, rfl⟩ := List.append_of_mem hmem
    have hstarts := h (tag.render ++ (62 :: render after)) (by
      have := suffix_render (.opening tag) before after
      rwa [Token.render, List.append_assoc, List.append_assoc] at this)
    exact Tag.allowed_of_starts (hwf _ hmem) (.inl rfl) hstarts
  · obtain ⟨before, after, rfl⟩ := List.append_of_mem hmem
    have hstarts := h (tag.render ++ (47 :: 62 :: render after)) (by
      have := suffix_render (.empty tag) before after
      rwa [Token.render, List.append_assoc, List.append_assoc] at this)
    exact Tag.allowed_of_starts (hwf _ hmem) (.inr rfl) hstarts

theorem strip_reference (id : Str) : PyText.strip (str "url(#" ++ id ++ str ")") = str "url(#" ++ id ++ str ")" := by
  have hhead : (str "url(#" ++ id ++ str ")").dropWhile PyText.isSpace = str "url(#" ++ id ++ str ")" := rfl
  have hlast : (str "url(#" ++ id ++ str ")").reverse.dropWhile PyText.isSpace = (str "url(#" ++ id ++ str ")").reverse := by
    rw [List.reverse_append]
    rfl
  rw [PyText.strip, hhead, hlast, List.reverse_reverse]

theorem HoldsOnlyAllowed.writtenPlainly (h : HoldsOnlyAllowed ids (render tokens)) (hwf : ∀ t ∈ tokens, t.WellFormed) :
    WrittenPlainly ids tokens where
  sections body hmem := by
    obtain ⟨before, after, rfl⟩ := List.append_of_mem hmem
    have hsuffix := suffix_render (.cdata body) before after
    rw [Token.render, List.append_assoc, List.append_assoc] at hsuffix
    exact not_startsAllowed_cdata (h _ hsuffix)
  comments before body after heq s hs := by
    subst heq
    refine h _ (List.IsSuffix.trans ?_ (suffix_render (.comment body) before after))
    rw [Token.render, List.append_assoc, List.append_assoc]
    obtain ⟨p, rfl⟩ := hs
    exact ⟨str "<!--" ++ p, by simp⟩
  names tag htag := (notMem_of_mem_ELEMENTS (h.tag_allowed hwf htag).1).1
  prefixes tag htag a ha := by
    have hlisted := ((h.tag_allowed hwf htag).2 a ha).1
    rw [Attribute.declares, splitName_of_notMem (notMem_of_mem_ATTRIBUTES hlisted)]
  references tag htag a ha hname hcare := by
    obtain ⟨id, -, heq⟩ := ((h.tag_allowed hwf htag).2 a ha).2 hname hcare
    rw [heq, strip_reference]

theorem WrittenPlainly.tag_allowed (h : WrittenPlainly ids tokens) (hwf : ∀ t ∈ tokens, t.WellFormed)
    (hresolve : resolve [] tokens = some elements) (hissues : ∀ element ∈ elements, elementIssues isAlnum ids element = [])
    (htag : tag ∈ tagsOf tokens) : tag.Allowed ids := by
  obtain ⟨scope, hscope, element, helement, hread⟩ := resolve_reads (P := Scope.Plain) rfl (by simp)
    (fun tag htag scope hscope => hscope.extend (h.prefixes tag htag)) hresolve htag
  have hmem : tag.WellFormed := by
    rcases mem_tagsOf htag with hmem | hmem
    · exact hwf _ hmem
    · exact hwf _ hmem
  obtain ⟨hname, hattributes⟩ := Scope.element_allowed hmem (hscope.extend (h.prefixes tag htag)) (h.names tag htag)
    (h.prefixes tag htag) hread (hissues element helement)
  refine ⟨hname, fun a ha => ⟨(hattributes a ha).1, fun hlabel hcare => ?_⟩⟩
  rw [← h.references tag htag a ha hlabel hcare]
  exact (hattributes a ha).2 hlabel hcare

theorem WrittenPlainly.holdsOnlyAllowed (h : WrittenPlainly ids tokens) (hwf : ∀ t ∈ tokens, t.WellFormed)
    (hbalanced : Balanced [] tokens) (hforbidden : hasForbiddenText (render tokens) = false)
    (hresolve : resolve [] tokens = some elements)
    (hissues : ∀ element ∈ elements, elementIssues isAlnum ids element = []) : HoldsOnlyAllowed ids (render tokens) := by
  intro s hs
  have hallowed : ∀ tag ∈ tagsOf tokens, tag.Allowed ids := fun tag htag => h.tag_allowed hwf hresolve hissues htag
  obtain ⟨before, t, after, rest, rfl, ht, heq⟩ := exists_token hs
  have hmem : t ∈ before ++ t :: after := List.mem_append_right _ List.mem_cons_self
  have htags : ∀ {tag : Tag}, t = .opening tag ∨ t = .empty tag → tag ∈ tagsOf (before ++ t :: after) := by
    rintro tag (rfl | rfl)
    · exact List.mem_filterMap.mpr ⟨_, hmem, rfl⟩
    · exact List.mem_filterMap.mpr ⟨_, hmem, rfl⟩
  rw [heq]
  have hwft := hwf t hmem
  have hwhole : t.Allowed ids → 60 :: rest = t.render → StartsAllowed ids (60 :: rest ++ render after) :=
    fun hallowed hrender => ⟨t, hwft, hallowed, hrender ▸ List.prefix_append _ _⟩
  have hmarked : ∀ {word : Str}, word ∈ FORBIDDEN_TEXT → ∀ x, t.render = word ++ x → False := by
    intro word hword x hrender
    have hsuffix := suffix_render t before after
    rw [hrender, List.append_assoc] at hsuffix
    rw [hasForbiddenText_of_suffix hword hsuffix] at hforbidden
    cases hforbidden
  cases t with
  | text raw => exact absurd rfl (hwft 60 (ht.subset List.mem_cons_self))
  | comment body =>
      rcases suffix_comment ht with hrender | ⟨inner, hinner, hrender⟩
      · exact hwhole trivial hrender
      · rw [hrender, List.append_assoc]
        exact h.comments before body after rfl inner hinner
  | cdata body => exact absurd hmem (h.sections body)
  | instruction body => exact (@hmarked (str "<?") (by decide) (body ++ str "?>") (List.append_assoc _ _ _)).elim
  | doctype body =>
      exact (@hmarked (str "<!DOCTYPE") (by decide) (body ++ str ">") (List.append_assoc _ _ _)).elim
  | opening tag =>
      refine hwhole (hallowed tag (htags (.inl rfl))) ?_
      rw [Token.render, List.append_assoc] at ht ⊢
      have hrest := eq_of_suffix_of_notMem (x := tag.render ++ str ">") ht fun hc =>
        (List.mem_append.mp hc).elim hwft.notMem (by decide)
      rw [hrest]
      rfl
  | empty tag =>
      refine hwhole (hallowed tag (htags (.inr rfl))) ?_
      rw [Token.render, List.append_assoc] at ht ⊢
      have hrest := eq_of_suffix_of_notMem (x := tag.render ++ str "/>") ht fun hc =>
        (List.mem_append.mp hc).elim hwft.notMem (by decide)
      rw [hrest]
      rfl
  | closing name blanks =>
      rcases hbalanced.closing hmem with hname | ⟨tag, htag, rfl⟩
      · cases hname
      · refine hwhole (hallowed tag htag).1 ?_
        have hrender : (Token.closing tag.name blanks).render = 60 :: (47 :: (tag.name ++ (blanks ++ str ">"))) := by
          rw [Token.render, List.append_assoc, List.append_assoc]
          rfl
        rw [hrender] at ht ⊢
        have hnone : 60 ∉ 47 :: (tag.name ++ (blanks ++ str ">")) := by
          simp only [List.mem_cons, List.mem_append, not_or]
          exact ⟨by decide, fun hc => isNameChar_ne (hwft.1.2 _ hc) rfl, fun hc => isBlank_ne (hwft.2 _ hc) rfl, by decide⟩
        rw [eq_of_suffix_of_notMem ht hnone]

end

/-- An accepted figure holds only what is listed, however it is read, exactly when it is written plainly. -/
theorem accepted_holds_only_allowed (lib : Library) (hparse : ReadsWellFormed lib.parse) {svg : Str}
    (h : figureIssues lib svg = []) : ∃ tokens elements, lib.parse svg = some tokens ∧
      resolve [] tokens = some elements ∧
      (HoldsOnlyAllowed (idsOf elements) svg ↔ WrittenPlainly (idsOf elements) tokens) := by
  obtain ⟨hforbidden, tokens, elements, htokens, hresolve, hissues⟩ := figureIssues_eq_nil h
  obtain ⟨rfl, hwf, hbalanced⟩ := hparse svg tokens htokens
  exact ⟨tokens, elements, htokens, hresolve, fun h => h.writtenPlainly hwf,
    fun h => h.holdsOnlyAllowed hwf hbalanced hforbidden hresolve hissues⟩

namespace Sample

def written (name value : String) : Attribute := ⟨str " ", str name, [], [], 34, str value⟩

def root : Tag := ⟨str "svg", [written "xmlns" "http://www.w3.org/2000/svg"], []⟩

/-- A parser that reads one document. -/
def reads (tokens : List Token) : Library where
  parse s := if s = render tokens then some tokens else none
  isAlnum _ := false

def line : List Token := [.opening root, .empty ⟨str "line", [written "stroke" "url(#a)", written "id" "a"], str " "⟩,
  .closing (str "svg") []]

def section_ : List Token := [.opening root, .cdata (str "<script>"), .closing (str "svg") []]

theorem written_wellFormed {name value : String} (hname : str name ≠ [] ∧ ∀ c ∈ str name, isNameChar c = true)
    (hvalue : ∀ c ∈ str value, c ≠ 60 ∧ c ≠ 34) : (written name value).WellFormed :=
  have hblank : str " " ≠ [] ∧ ∀ c ∈ str " ", isBlank c = true := by decide
  ⟨hblank, hname, nofun, .inl rfl, hvalue⟩

theorem root_wellFormed : root.WellFormed :=
  ⟨⟨by decide, by decide⟩, List.forall_mem_singleton.mpr (written_wellFormed ⟨by decide, by decide⟩ (by decide)),
    by decide, by decide⟩

theorem reads_wellFormed {tokens : List Token} (hwf : ∀ t ∈ tokens, t.WellFormed) (hbalanced : Balanced [] tokens) :
    ReadsWellFormed (reads tokens).parse := by
  intro s tokens' h
  simp only [reads, Option.ite_none_right_eq_some, Option.some.injEq] at h
  obtain ⟨rfl, rfl⟩ := h
  exact ⟨rfl, hwf, hbalanced⟩

end Sample

theorem accepted_holds_only_allowed_sample :
    figureIssues (Sample.reads Sample.line) (render Sample.line) = [] ∧
      ∃ tokens elements, (Sample.reads Sample.line).parse (render Sample.line) = some tokens ∧
        resolve [] tokens = some elements ∧
        (HoldsOnlyAllowed (idsOf elements) (render Sample.line) ↔ WrittenPlainly (idsOf elements) tokens) := by
  have haccepted : figureIssues (Sample.reads Sample.line) (render Sample.line) = [] := by decide +kernel
  have hbalanced : Balanced [] Sample.line := ⟨[], rfl, rfl⟩
  refine ⟨haccepted, accepted_holds_only_allowed _ (Sample.reads_wellFormed ?_ hbalanced) haccepted⟩
  refine List.forall_mem_cons.mpr ⟨Sample.root_wellFormed, List.forall_mem_cons.mpr ⟨⟨⟨by decide, by decide⟩, ?_,
    by decide, by decide⟩, List.forall_mem_singleton.mpr ⟨⟨by decide, by decide⟩, nofun⟩⟩⟩
  refine List.forall_mem_cons.mpr ⟨Sample.written_wellFormed ⟨by decide, by decide⟩ (by decide), ?_⟩
  exact List.forall_mem_singleton.mpr (Sample.written_wellFormed ⟨by decide, by decide⟩ (by decide))

/-- A script stands in a literal section, and the figure is accepted. -/
theorem accepted_holds_script : ReadsWellFormed (Sample.reads Sample.section_).parse ∧
    figureIssues (Sample.reads Sample.section_) (render Sample.section_) = [] ∧
    (60 :: str "script>") <:+: render Sample.section_ ∧ ¬ HoldsOnlyAllowed [] (render Sample.section_) := by
  have hbalanced : Balanced [] Sample.section_ := ⟨[], rfl, rfl⟩
  refine ⟨Sample.reads_wellFormed ?_ hbalanced, by decide +kernel, by decide +kernel, fun h => ?_⟩
  · exact List.forall_mem_cons.mpr ⟨Sample.root_wellFormed, List.forall_mem_cons.mpr ⟨trivial,
      List.forall_mem_singleton.mpr ⟨⟨by decide, by decide⟩, nofun⟩⟩⟩
  · have hsuffix := suffix_render (.cdata (str "<script>")) [.opening Sample.root]
      [.closing (str "svg") []]
    rw [Token.render, List.append_assoc, List.append_assoc] at hsuffix
    exact not_startsAllowed_cdata (h _ hsuffix)

end Stoa.Figure
