import Stoa.Model.Recommendation
import Stoa.Verification.Mastery.Prerequisites
import Stoa.Verification.StarMap.Neighbourhood

/-! # The recommendation of the map

What is begun comes first, then what the latest lighting leads to, then the start. -/

namespace Stoa.StarMap

open Mastery List

/-! ## The rule -/

/-- A unit of the catalog states another one as its prerequisite. -/
def Succeeds (units : List CatalogUnit) (before after : Star) : Prop :=
  ∃ unit ∈ units, unit.id = after.unitId ∧ before.unitId ∈ unit.prerequisiteUnitIds.getD []

namespace Course

variable (course : Course) (units : List CatalogUnit) (subjectId : String)

/-- A star of the subject. -/
def Own (star : Star) : Prop := star ∈ course.stars ∧ course.subjectOf star = subjectId

def Begun (star : Star) : Prop := course.Own subjectId star ∧ star.state = .inProgress

/-- Neither lit nor behind a prerequisite that is not. -/
def Reachable (star : Star) : Prop :=
  course.Own subjectId star ∧ star.state ≠ .lit ∧ star.unlitPrerequisiteIds = []

/-- A lit star of the subject, or one with a successor that is reachable in it. -/
def Leads (star : Star) : Prop :=
  star ∈ course.stars ∧ star.state = .lit ∧
    (course.subjectOf star = subjectId ∨ ∃ next, course.Reachable subjectId next ∧ Succeeds units star next)

def lastEvidence (star : Star) : String := course.evidence.getD star.unitId ""

/-- The evidence is not later, and where it is as late, the star does not come first. -/
def EvidenceUpTo (star other : Star) : Prop :=
  course.lastEvidence other < course.lastEvidence star ∨
    (course.lastEvidence other = course.lastEvidence star ∧ course.stars.idxOf star ≤ course.stars.idxOf other)

/-- The lighting is not later. Where it is as late, the subject's own come first, then
what is furthest in the course. -/
def LitUpTo (star other : Star) : Prop :=
  course.litAt other < course.litAt star ∨
    (course.litAt other = course.litAt star ∧
      ((course.subjectOf star = subjectId ∧ course.subjectOf other ≠ subjectId) ∨
        ((course.subjectOf star = subjectId ↔ course.subjectOf other = subjectId) ∧
          course.stars.idxOf other ≤ course.stars.idxOf star)))

/-- What a subject recommends. -/
inductive Follows : Option (Star × Recommendation) → Prop where
  | inProgress {star : Star} (hbegun : course.Begun subjectId star)
      (hlatest : ∀ other, course.Begun subjectId other → course.EvidenceUpTo star other) :
      Follows (some (star, ⟨.inProgress, none⟩))
  | afterLit {star lit : Star} (hbegun : ∀ other, ¬ course.Begun subjectId other)
      (hstar : course.Reachable subjectId star) (hlit : course.Leads units subjectId lit)
      (hlatest : ∀ other, course.Leads units subjectId other → course.LitUpTo subjectId lit other) :
      Follows (some (star, ⟨.afterLit, some lit.unitId⟩))
  | start {star : Star} (hbegun : ∀ other, ¬ course.Begun subjectId other)
      (hstar : course.Reachable subjectId star) (hlit : ∀ other, ¬ course.Leads units subjectId other) :
      Follows (some (star, ⟨.start, none⟩))
  | nothing (hbegun : ∀ other, ¬ course.Begun subjectId other)
      (hstar : ∀ other, ¬ course.Reachable subjectId other) : Follows none

end Course

/-! ## Places and ids -/

namespace Course

section

variable {course : Course} {units : List CatalogUnit} {subjectId : String} {star : Star}

/-- Every id is that of one star. -/
def Distinct (course : Course) : Prop := (course.stars.map Star.unitId).Nodup

theorem Distinct.eq (h : course.Distinct) {a b : Star} (ha : a ∈ course.stars) (hb : b ∈ course.stars)
    (hid : a.unitId = b.unitId) : a = b := inj_on_of_nodup_map h ha hb hid

theorem position_eq (h : course.Distinct) (hstar : star ∈ course.stars) :
    course.position star = course.stars.idxOf star := by
  have hpairs : (course.stars.map Star.unitId).zipIdx = course.stars.zipIdx.map fun p => (p.1.unitId, p.2) :=
    zipIdx_map ..
  have hplace : (star, course.stars.idxOf star) ∈ course.stars.zipIdx := by
    rw [mem_zipIdx_iff_getElem?]
    exact getElem?_idxOf hstar
  unfold position OrderedDict.getD
  rw [hpairs, OrderedDict.get?_ofPairs_map]
  have hfind : (course.stars.zipIdx.reverse.find? fun p => p.1.unitId = star.unitId) = some (star, course.stars.idxOf star) := by
    have hsome : (course.stars.zipIdx.reverse.find? fun p => p.1.unitId = star.unitId).isSome :=
      find?_isSome.mpr ⟨_, mem_reverse.mpr hplace, decide_eq_true rfl⟩
    obtain ⟨found, hfound⟩ := Option.isSome_iff_exists.mp hsome
    have hid : found.1.unitId = star.unitId := by simpa using find?_some hfound
    have hmem : found ∈ course.stars.zipIdx := mem_reverse.mp (mem_of_find?_eq_some hfound)
    have hget := mem_zipIdx_iff_getElem?.mp hmem
    have hsame : found.1 = star := h.eq (mem_of_getElem? hget) hstar hid
    rw [hfound]
    refine congrArg some (Prod.ext hsame ?_)
    have hnodup : course.stars.Nodup := Nodup.of_map _ h
    obtain ⟨hi, heq⟩ := List.getElem?_eq_some_iff.mp hget
    rw [← hsame, ← heq]
    exact (hnodup.idxOf_getElem _ hi).symm
  rw [hfind]
  rfl

theorem byId_eq_some (h : course.Distinct) {unitId : String} :
    course.byId.get? unitId = some star ↔ star ∈ course.stars ∧ star.unitId = unitId := by
  unfold byId
  rw [OrderedDict.get?_ofPairs_map, Option.map_id']
  constructor
  · intro hfind
    exact ⟨mem_reverse.mp (mem_of_find?_eq_some hfind), by simpa using find?_some hfind⟩
  · rintro ⟨hstar, rfl⟩
    have hsome : (course.stars.reverse.find? fun other => other.unitId = star.unitId).isSome :=
      find?_isSome.mpr ⟨star, mem_reverse.mpr hstar, decide_eq_true rfl⟩
    obtain ⟨found, hfound⟩ := Option.isSome_iff_exists.mp hsome
    have hid : found.unitId = star.unitId := by simpa using find?_some hfound
    rw [hfound, h.eq (mem_reverse.mp (mem_of_find?_eq_some hfound)) hstar hid]

theorem mem_mine : star ∈ course.mine subjectId ↔ course.Own subjectId star := by
  simp [mine, Own]

theorem mem_frontier : star ∈ course.frontier subjectId ↔ course.Reachable subjectId star := by
  simp [frontier, mem_mine, Reachable]

end

end Course

/-! ## Successors -/

theorem mem_successors {units : List CatalogUnit} {before after : String} :
    after ∈ (successors units).getD before [] ↔
      ∃ unit ∈ units, unit.id = after ∧ before ∈ unit.prerequisiteUnitIds.getD [] := by
  have hinner : ∀ (ids : List String) (next : String) (found : OrderedDict String (List String)),
      after ∈ (ids.foldl (fun found id => found.insert id (found.getD id [] ++ [next])) found).getD before [] ↔
        after ∈ found.getD before [] ∨ (next = after ∧ before ∈ ids) := by
    intro ids next found
    induction ids generalizing found with
    | nil => simp
    | cons id ids ih =>
        have hstep : (found.insert id (found.getD id [] ++ [next])).getD before [] =
            if before = id then found.getD id [] ++ [next] else found.getD before [] := by
          unfold OrderedDict.getD
          rw [OrderedDict.get?_insert]
          split <;> rfl
        rw [foldl_cons, ih, hstep]
        by_cases hid : before = id
        · subst hid
          have hnext : after = next ↔ next = after := eq_comm
          simp only [if_true, mem_append, mem_cons, true_or, and_true, hnext]
          tauto
        · simp [hid]
  have houter : ∀ found : OrderedDict String (List String),
      after ∈ (units.foldl (fun found unit => (unit.prerequisiteUnitIds.getD []).foldl
        (fun found before => found.insert before (found.getD before [] ++ [unit.id])) found) found).getD before [] ↔
        after ∈ found.getD before [] ∨ ∃ unit ∈ units, unit.id = after ∧ before ∈ unit.prerequisiteUnitIds.getD [] := by
    induction units with
    | nil => simp
    | cons unit units ih =>
        intro found
        rw [foldl_cons, ih, hinner]
        simp [or_assoc]
  have hempty := houter .empty
  simpa [successors, OrderedDict.getD] using hempty

namespace Course

section

variable {course : Course} {units : List CatalogUnit} {subjectId : String} {star lit : Star}

/-! ## What a lighting leads to -/

/-- The successors that are known are those of the catalog. -/
def Knows (course : Course) (units : List CatalogUnit) : Prop := course.successors = StarMap.successors units

theorem mem_following (h : course.Distinct) (hknows : course.Knows units) :
    star ∈ ((course.successors.getD lit.unitId []).filter fun unitId =>
        unitId ∈ (course.frontier subjectId).map Star.unitId).filterMap course.byId.get? ↔
      course.Reachable subjectId star ∧ Succeeds units lit star := by
  simp only [mem_filterMap, mem_filter, byId_eq_some h, decide_eq_true_eq, mem_map, mem_frontier]
  rw [hknows]
  constructor
  · rintro ⟨unitId, ⟨hsuccessor, other, hother, hid⟩, hstar, rfl⟩
    have hsame : other = star := h.eq hother.1.1 hstar hid
    exact ⟨hsame ▸ hother, mem_successors.mp hsuccessor⟩
  · rintro ⟨hstar, hsucceeds⟩
    exact ⟨star.unitId, ⟨mem_successors.mpr hsucceeds, star, hstar, rfl⟩, hstar.1.1, rfl⟩

/-- A lighting leads to a reachable star, and does so exactly where the subject is its
own or holds a reachable successor. -/
theorem after_spec (h : course.Distinct) (hknows : course.Knows units) (hsome : ∃ other, course.Reachable subjectId other) :
    (∀ next, course.after subjectId lit = some next → course.Reachable subjectId next) ∧
      ((course.after subjectId lit).isSome ↔
        course.subjectOf lit = subjectId ∨ ∃ next, course.Reachable subjectId next ∧ Succeeds units lit next) := by
  have hmem : ∀ star, star ∈ ((course.successors.getD lit.unitId []).filter fun unitId =>
      unitId ∈ (course.frontier subjectId).map Star.unitId).filterMap course.byId.get? ↔
        course.Reachable subjectId star ∧ Succeeds units lit star := fun _ => mem_following h hknows
  unfold after
  simp only
  split
  · rename_i hfollowing
    have hexists := exists_mem_of_ne_nil _ hfollowing
    constructor
    · intro next hnext
      exact ((hmem next).mp (argmin_mem hnext)).1
    · refine iff_of_true ?_ (.inr (hexists.imp fun next hnext => (hmem next).mp hnext))
      rw [Option.isSome_iff_ne_none, Ne, argmin_eq_none]
      exact hfollowing
  · rename_i hfollowing
    have hnone : ¬ ∃ next, course.Reachable subjectId next ∧ Succeeds units lit next := by
      rintro ⟨next, hnext⟩
      exact hfollowing (ne_nil_of_mem ((hmem next).mpr hnext))
    split
    · rename_i hother
      exact ⟨by simp, iff_of_false (by simp) (not_or.mpr ⟨hother, hnone⟩)⟩
    · rename_i hown
      rw [not_not] at hown
      obtain ⟨other, hother⟩ := hsome
      have hfrontier : course.frontier subjectId ≠ [] := ne_nil_of_mem (mem_frontier.mpr hother)
      split
      · rename_i hlater
        refine ⟨fun next hnext => ?_, iff_of_true ?_ (.inl hown)⟩
        · exact mem_frontier.mp (mem_filter.mp (mem_of_mem_head? hnext)).1
        · simpa using hlater
      · refine ⟨fun next hnext => mem_frontier.mp (mem_of_mem_head? hnext), iff_of_true ?_ (.inl hown)⟩
        simpa using hfrontier

/-! ## Lightings in order -/

theorem pairwise_lightings : (course.lightings subjectId).Pairwise
    fun a b => course.lightingKey subjectId b ≤ course.lightingKey subjectId a := by
  have : Std.Total fun a b => course.lightingKey subjectId b ≤ course.lightingKey subjectId a :=
    ⟨fun a b => le_total _ _⟩
  have : IsTrans Star fun a b => course.lightingKey subjectId b ≤ course.lightingKey subjectId a :=
    ⟨fun a b c hab hbc => hbc.trans hab⟩
  exact pairwise_insertionSort _ _

theorem mem_lightings_of_leads (h : course.Distinct) (hknows : course.Knows units) (hlit : course.Leads units subjectId lit) :
    lit ∈ course.lightings subjectId := by
  obtain ⟨hmem, hstate, hleads⟩ := hlit
  refine (mem_insertionSort _).mpr (mem_filter.mpr ⟨hmem, decide_eq_true ⟨hstate, ?_⟩⟩)
  refine hleads.imp_right fun ⟨next, hnext, hsucceeds⟩ => ?_
  refine any_eq_true.mpr ⟨next.unitId, ?_, ?_⟩
  · rw [hknows]
    exact mem_successors.mpr hsucceeds
  · rw [(byId_eq_some h).mpr ⟨hnext.1.1, rfl⟩]
    simpa using hnext.1.2

theorem leads_of_mem (hmem : lit ∈ course.lightings subjectId)
    (hleads : course.subjectOf lit = subjectId ∨ ∃ next, course.Reachable subjectId next ∧ Succeeds units lit next) :
    course.Leads units subjectId lit := by
  obtain ⟨hstar, hstate⟩ := mem_filter.mp ((mem_insertionSort _).mp hmem)
  exact ⟨hstar, (of_decide_eq_true hstate).1, hleads⟩

theorem litUpTo_of_key_le (h : course.Distinct) {a b : Star} (ha : a ∈ course.stars) (hb : b ∈ course.stars)
    (hle : course.lightingKey subjectId b ≤ course.lightingKey subjectId a) : course.LitUpTo subjectId a b := by
  unfold lightingKey at hle
  rw [Prod.Lex.toLex_le_toLex] at hle
  refine hle.imp_right fun ⟨htime, hrest⟩ => ⟨htime, ?_⟩
  rw [Prod.Lex.toLex_le_toLex] at hrest
  rw [position_eq h ha, position_eq h hb] at hrest
  rcases hrest with hless | ⟨hsame, hplace⟩
  · rw [Bool.lt_iff] at hless
    exact .inl ⟨of_decide_eq_true hless.2, of_decide_eq_false hless.1⟩
  · exact .inr ⟨(decide_eq_decide.mp hsame).symm, hplace⟩

/-- The first of a list that yields something comes before all others that do. -/
theorem findSome?_pairwise {α β : Type} {R : α → α → Prop} {f : α → Option β} {l : List α} (hl : l.Pairwise R) {b : β}
    (hb : l.findSome? f = some b) : ∃ a ∈ l, f a = some b ∧ ∀ x ∈ l, (f x).isSome → x = a ∨ R a x := by
  induction l with
  | nil => cases hb
  | cons a l ih =>
      rw [findSome?_cons] at hb
      cases hf : f a with
      | some c =>
          rw [hf] at hb
          cases hb
          refine ⟨a, mem_cons_self, hf, fun x hx _ => ?_⟩
          exact (mem_cons.mp hx).imp_right fun hx => rel_of_pairwise_cons hl hx
      | none =>
          rw [hf] at hb
          obtain ⟨a', ha', hfa', hall⟩ := ih hl.of_cons hb
          refine ⟨a', mem_cons_of_mem _ ha', hfa', fun x hx hsome => ?_⟩
          rcases mem_cons.mp hx with rfl | hx
          · rw [hf] at hsome
            cases hsome
          · exact hall x hx hsome

theorem evidenceUpTo_of_key_le (h : course.Distinct) {a b : Star} (ha : a ∈ course.stars) (hb : b ∈ course.stars)
    (hle : course.progressKey b ≤ course.progressKey a) : course.EvidenceUpTo a b := by
  unfold progressKey at hle
  rw [Prod.Lex.toLex_le_toLex] at hle
  refine hle.imp_right fun ⟨hsame, hplace⟩ => ⟨hsame, ?_⟩
  rw [position_eq h ha, position_eq h hb] at hplace
  omega

theorem recommendation_follows (h : course.Distinct) (hknows : course.Knows units) :
    course.Follows units subjectId (course.recommendation subjectId) := by
  have hbegunMem : ∀ star, star ∈ ((course.mine subjectId).filter fun star => star.state = .inProgress) ↔
      course.Begun subjectId star := by
    simp [mem_mine, Begun]
  unfold recommendation
  split
  · rename_i latest hlatest
    have hbegun := (hbegunMem latest).mp (argmax_mem hlatest)
    refine .inProgress hbegun fun other hother => ?_
    exact evidenceUpTo_of_key_le h hbegun.1.1 hother.1.1 (le_of_mem_argmax ((hbegunMem other).mpr hother) hlatest)
  · rename_i hnone
    have hbegun : ∀ other, ¬ course.Begun subjectId other := by
      intro other hother
      have hmem := (hbegunMem other).mpr hother
      rw [argmax_eq_none.mp hnone] at hmem
      cases hmem
    split
    · rename_i hfrontier
      refine .nothing hbegun fun other hother => ?_
      have hmem := mem_frontier.mpr hother
      rw [hfrontier] at hmem
      cases hmem
    · rename_i first rest hfrontier
      have hfirst : course.Reachable subjectId first := mem_frontier.mp (hfrontier ▸ mem_cons_self)
      have hafter : ∀ lit, (∀ next, course.after subjectId lit = some next → course.Reachable subjectId next) ∧
          ((course.after subjectId lit).isSome ↔ course.subjectOf lit = subjectId ∨
            ∃ next, course.Reachable subjectId next ∧ Succeeds units lit next) :=
        fun _ => after_spec h hknows ⟨first, hfirst⟩
      cases hfound : (course.lightings subjectId).findSome? fun lit =>
          (course.after subjectId lit).map fun following =>
            (following, (⟨.afterLit, some lit.unitId⟩ : Recommendation)) with
      | none =>
          rw [findSome?_eq_none_iff] at hfound
          refine .start hbegun hfirst fun other hother => ?_
          have hnone := hfound other (mem_lightings_of_leads h hknows hother)
          have hsome := (hafter other).2.mpr hother.2.2
          rw [Option.map_eq_none_iff] at hnone
          rw [hnone] at hsome
          cases hsome
      | some picked =>
          obtain ⟨lit, hmem, hpicked, hall⟩ := findSome?_pairwise pairwise_lightings hfound
          obtain ⟨following, hfollowing, rfl⟩ := Option.map_eq_some_iff.mp hpicked
          have hleads : course.Leads units subjectId lit :=
            leads_of_mem hmem ((hafter lit).2.mp (by rw [hfollowing]; rfl))
          refine .afterLit hbegun ((hafter lit).1 following hfollowing) hleads fun other hother => ?_
          have hsome := (hafter other).2.mpr hother.2.2
          rcases hall other (mem_lightings_of_leads h hknows hother) (by simpa using hsome) with rfl | hle
          · exact litUpTo_of_key_le h hother.1 hother.1 le_rfl
          · exact litUpTo_of_key_le h hleads.1 hother.1 hle

/-- What is recommended is a star of the subject. -/
theorem recommendation_own (h : course.Distinct) (hknows : course.Knows units) {recommendation : Recommendation}
    (hpicked : course.recommendation subjectId = some (star, recommendation)) : course.Own subjectId star := by
  have hfollows : course.Follows units subjectId (course.recommendation subjectId) :=
    recommendation_follows h hknows
  rw [hpicked] at hfollows
  cases hfollows with
  | inProgress hbegun _ => exact hbegun.1
  | afterLit _ hstar _ _ => exact hstar.1
  | start _ hstar _ => exact hstar.1

end

end Course

/-! ## Marks -/

section

variable {atlas : Atlas} {facts : Facts} {subjects : List Subject} {units : List CatalogUnit}
  {enrolledSubjectIds : List String} {lastEvidenceByUnit : OrderedDict String String}

/-- Stars have the ids of their units. -/
theorem buildMap_ids_sublist :
    (buildMap atlas facts units).map Star.unitId <+ (units.insertionSort (inCourse facts.topics)).map CatalogUnit.id := by
  unfold buildMap
  rw [map_filterMap]
  induction units.insertionSort (inCourse facts.topics) with
  | nil => exact .slnil
  | cons unit rest ih =>
      rw [filterMap_cons, map_cons]
      split
      · exact ih.cons _
      · rename_i unitId hsome
        obtain ⟨star, hstar, rfl⟩ := Option.map_eq_some_iff.mp hsome
        have hid : star.unitId = unit.id := by
          split at hstar
          · cases hstar
          · split at hstar
            · cases hstar
            · cases hstar
              rfl
        rw [hid]
        exact ih.cons_cons _

theorem courseOf_distinct (hids : (units.map CatalogUnit.id).Nodup) :
    (courseOf atlas facts units lastEvidenceByUnit).Distinct := by
  have hsorted : ((units.insertionSort (inCourse facts.topics)).map CatalogUnit.id).Nodup :=
    ((perm_insertionSort _ units).map _).nodup_iff.mpr hids
  exact hsorted.sublist buildMap_ids_sublist

/-- Marks are what the visited subjects recommend. -/
structure MarksOf (course : Course) (visited : List Subject) (marked : List (Star × Option Recommendation)) : Prop where
  stars : marked.map Prod.fst = course.stars
  marks : ∀ star recommendation, (star, some recommendation) ∈ marked ↔
    ∃ subject ∈ visited, course.recommendation subject.id = some (star, recommendation)

theorem MarksOf.mark {course : Course} (h : course.Distinct) (hknows : course.Knows units) {visited : List Subject}
    {marked : List (Star × Option Recommendation)} (hmarks : MarksOf course visited marked) (subject : Subject) :
    MarksOf course (visited ++ [subject]) (mark (course.recommendation subject.id) marked) := by
  cases hpicked : course.recommendation subject.id with
  | none =>
      refine ⟨hmarks.stars, fun star recommendation => ?_⟩
      simp [StarMap.mark, hmarks.marks, hpicked, or_and_right, exists_or]
  | some picked =>
      obtain ⟨star, recommendation⟩ := picked
      have hown := Course.recommendation_own h hknows hpicked
      have hstar : ∀ other ∈ marked, other.1.unitId = star.unitId → other.1 = star := by
        intro other hother hid
        exact h.eq (hmarks.stars ▸ mem_map_of_mem hother) hown.1 hid
      refine ⟨?_, fun other recommended => ?_⟩
      · rw [← hmarks.stars, StarMap.mark, map_map]
        refine map_congr_left fun s _ => ?_
        simp only [Function.comp_apply]
        split <;> rfl
      · simp only [StarMap.mark, mem_map, mem_append, mem_singleton, or_and_right, exists_or, exists_eq_left, hpicked,
          Option.some.injEq, Prod.mk.injEq, ← hmarks.marks]
        constructor
        · rintro ⟨s, hs, heq⟩
          split at heq
          · rename_i hid
            cases heq
            exact .inr ⟨(hstar s hs hid).symm, rfl⟩
          · exact .inl (heq ▸ hs)
        · rintro (hold | ⟨rfl, rfl⟩)
          · by_cases hid : other.unitId = star.unitId
            · -- An older mark on the same star is the same mark.
              have hsame : other = star := hstar _ hold hid
              obtain ⟨earlier, -, hearlier⟩ := (hmarks.marks other recommended).mp hold
              have hearlierOwn := Course.recommendation_own h hknows hearlier
              rw [hsame] at hearlierOwn hearlier
              rw [← hearlierOwn.2, hown.2, hpicked] at hearlier
              cases hearlier
              exact ⟨_, hold, by rw [if_pos hid, hsame]⟩
            · exact ⟨(other, some recommended), hold, if_neg hid⟩
          · obtain ⟨s, hs, rfl⟩ := mem_map.mp (hmarks.stars ▸ hown.1)
            exact ⟨s, hs, if_pos rfl⟩

theorem marksOf_foldl {course : Course} (h : course.Distinct) (hknows : course.Knows units) (visited : List Subject) :
    MarksOf course visited (visited.foldl (fun stars subject => mark (course.recommendation subject.id) stars)
      (course.stars.map fun star => (star, none))) := by
  induction visited using reverseRecOn with
  | nil => exact ⟨by simp [Function.comp_def], by simp⟩
  | append_singleton visited subject ih =>
      rw [foldl_append]
      exact ih.mark h hknows subject

end

/-! ## Prerequisites on the map -/

section

variable {atlas : Atlas} {facts : Facts} {content : Content} {evidence : Evidence}

/-- A star that is not lit has no unlit prerequisite exactly where every other star that
its unit states is lit. -/
theorem unlitPrerequisiteIds_eq_nil_iff (hids : (content.units.map CatalogUnit.id).Nodup)
    (hstates : facts.unitStates = unitStates content evidence) {star : Star}
    (hstar : star ∈ buildMap atlas facts content.units) (hunlit : star.state ≠ .lit) :
    star.unlitPrerequisiteIds = [] ↔ ∀ other ∈ buildMap atlas facts content.units, Succeeds content.units other star →
      other.unitId ≠ "" → other ≠ star → other.state = .lit := by
  have hdrawn : ∀ {other : Star}, other ∈ buildMap atlas facts content.units → ∃ unit ∈ content.units, ∃ judged,
      (litByQuiz content evidence).get? unit.id = some judged ∧ judged.lessonCount ≠ 0 ∧ other.unitId = unit.id ∧
        other.state = judged.state ∧
        other.unlitPrerequisiteIds = (withPrerequisites content evidence unit judged).unlitPrerequisiteIds := by
    intro other hother
    obtain ⟨unit, hunit, m, hm, hcount, rfl⟩ := mem_buildMap.mp hother
    rw [hstates] at hm
    obtain ⟨judged, hjudged, rfl⟩ := unitStates_eq_some hids hunit hm
    rw [withPrerequisites_lessonCount] at hcount
    exact ⟨unit, hunit, judged, hjudged, hcount, rfl, withPrerequisites_state judged, rfl⟩
  obtain ⟨unit, hunit, judged, hjudged, -, hid, hstate, hmissing⟩ := hdrawn hstar
  rw [hmissing, withPrerequisites_eq_nil (litByQuiz_unlit hjudged)]
  rw [hstate] at hunlit
  constructor
  · intro h other hother hsucceeds hblank hne
    obtain ⟨row, hrow, hrowId, hstated⟩ := hsucceeds
    have hsame : row = unit := inj_on_of_nodup_map hids hrow hunit (hrowId.trans hid)
    subst hsame
    obtain ⟨unit', hunit', judged', hjudged', hcount', hid', hstate', -⟩ := hdrawn hother
    have hself : other.unitId ≠ row.id := by
      intro heq
      have hcourse : (courseOf atlas facts content.units .empty).Distinct := courseOf_distinct hids
      exact hne (hcourse.eq hother hstar (heq.trans hid.symm))
    have hlearnable : other.unitId ∈ learnableIds content evidence :=
      mem_learnableIds.mpr ⟨judged', hid' ▸ hjudged', Nat.pos_of_ne_zero hcount'⟩
    obtain ⟨m, hm, hlit⟩ := mem_litIds.mp (h hunlit _ hstated hblank hself hlearnable)
    rw [hid', hjudged'] at hm
    cases hm
    rw [hstate', hlit]
  · intro h _ item hstated hblank hself hlearnable
    obtain ⟨judged', hjudged', hcount'⟩ := mem_learnableIds.mp hlearnable
    obtain ⟨unit', hunit', rfl, m, hm⟩ := exists_unitStates hjudged'
    obtain ⟨judged'', hjudged'', rfl⟩ := unitStates_eq_some hids hunit' hm
    have hother : drawStar atlas facts (unitNames content.units) unit' (withPrerequisites content evidence unit' judged'') ∈
        buildMap atlas facts content.units := by
      refine mem_buildMap.mpr ⟨unit', hunit', _, hstates ▸ hm, ?_, rfl⟩
      rw [hjudged'] at hjudged''
      cases hjudged''
      rw [withPrerequisites_lessonCount]
      omega
    have hlit := h _ hother ⟨unit, hunit, hid.symm, hstated⟩ hblank fun heq => hself (by rw [← hid, ← heq]; rfl)
    exact mem_litIds.mpr ⟨judged'', hjudged'', (withPrerequisites_state judged'').symm.trans hlit⟩

end

/-- The marks of a map. Every enrolled subject marks the one star that the rule picks, if
it picks one, and other subjects mark none. -/
structure RecommendsByRule (atlas : Atlas) (facts : Facts) (subjects : List Subject) (units : List CatalogUnit)
    (enrolledSubjectIds : List String) (lastEvidenceByUnit : OrderedDict String String)
    (marked : List (Star × Option Recommendation)) : Prop where
  stars : marked.map Prod.fst = buildMap atlas facts units
  enrolled : ∀ star recommendation, (star, some recommendation) ∈ marked →
    ∃ subject ∈ subjects, isEnrolled atlas enrolledSubjectIds subject = true ∧
      (courseOf atlas facts units lastEvidenceByUnit).subjectOf star = subject.id
  rule : ∀ subject ∈ subjects, isEnrolled atlas enrolledSubjectIds subject = true → ∃ picked,
    (courseOf atlas facts units lastEvidenceByUnit).Follows units subject.id picked ∧
      ∀ star recommendation, (courseOf atlas facts units lastEvidenceByUnit).subjectOf star = subject.id →
        ((star, some recommendation) ∈ marked ↔ picked = some (star, recommendation))
  /-- What the rule takes for unlit prerequisites. -/
  prerequisites : ∀ star ∈ buildMap atlas facts units, star.state ≠ .lit →
    (star.unlitPrerequisiteIds = [] ↔ ∀ other ∈ buildMap atlas facts units, Succeeds units other star →
      other.unitId ≠ "" → other ≠ star → other.state = .lit)

/-- The map recommends by its rule, for unit states as they are judged and rows of units
with ids of their own. -/
theorem recommends_by_rule (atlas : Atlas) (facts : Facts) (subjects : List Subject) (content : Content) (evidence : Evidence)
    (enrolledSubjectIds : List String) (lastEvidenceByUnit : OrderedDict String String)
    (hids : (content.units.map CatalogUnit.id).Nodup) (hstates : facts.unitStates = unitStates content evidence) :
    RecommendsByRule atlas facts subjects content.units enrolledSubjectIds lastEvidenceByUnit
      (markedStars atlas facts subjects content.units enrolledSubjectIds lastEvidenceByUnit) := by
  have hdistinct : (courseOf atlas facts content.units lastEvidenceByUnit).Distinct := courseOf_distinct hids
  have hknows : (courseOf atlas facts content.units lastEvidenceByUnit).Knows content.units := rfl
  have hvisited : ∀ subject, subject ∈ (subjects.insertionSort Subject.inOrder).filter (isEnrolled atlas enrolledSubjectIds) ↔
      subject ∈ subjects ∧ isEnrolled atlas enrolledSubjectIds subject = true := by
    simp
  obtain ⟨hstars, hmarks⟩ := marksOf_foldl hdistinct hknows
    ((subjects.insertionSort Subject.inOrder).filter (isEnrolled atlas enrolledSubjectIds))
  refine ⟨hstars, fun star recommendation hmarked => ?_, fun subject hsubject henrolled => ?_,
    fun star hstar hunlit => unlitPrerequisiteIds_eq_nil_iff hids hstates hstar hunlit⟩
  · obtain ⟨subject, hsubject, hpicked⟩ := (hmarks star recommendation).mp hmarked
    obtain ⟨hmem, henrolled⟩ := (hvisited subject).mp hsubject
    exact ⟨subject, hmem, henrolled, (Course.recommendation_own hdistinct hknows hpicked).2⟩
  · refine ⟨_, Course.recommendation_follows hdistinct hknows, fun star recommendation hown => ?_⟩
    refine (hmarks star recommendation).trans ⟨?_, fun hpicked => ⟨subject, (hvisited subject).mpr ⟨hsubject, henrolled⟩, hpicked⟩⟩
    rintro ⟨other, -, hpicked⟩
    rw [← hown, (Course.recommendation_own hdistinct hknows hpicked).2]
    exact hpicked

theorem recommends_by_rule_oneUnit :
    RecommendsByRule plainAtlas (fullFacts oneUnit (finished [])) oneUnit.subjects oneUnit.units ["math"] .empty
      (markedStars plainAtlas (fullFacts oneUnit (finished [])) oneUnit.subjects oneUnit.units ["math"] .empty) :=
  recommends_by_rule plainAtlas (fullFacts oneUnit (finished [])) oneUnit.subjects oneUnit.toContent
    (finished []).toEvidence ["math"] .empty (by decide) rfl

end Stoa.StarMap
