import Stoa.Model.StarMap

/-! # The neighbourhood against the full map -/

namespace Stoa.StarMap

open Mastery List

/-! ## Picking -/

/-- What holds of the picked units as each one is added. -/
structure Picks (units : OrderedDict String CatalogUnit) (focus : String)
    (picked : OrderedDict String Relation) : Prop where
  first : picked.keys.head? = some focus
  size : picked.keys.length ≤ MAX_NEIGHBOURHOOD
  known : picked.keys ⊆ units.keys

section

variable {units : OrderedDict String CatalogUnit} {focus : String}
  {picked : OrderedDict String Relation}

theorem Picks.add (h : Picks units focus picked) (role : Relation) (unitId : String) :
    Picks units focus (add units role picked unitId) := by
  unfold StarMap.add
  split
  · rename_i hadd
    obtain ⟨hunit, hnew, hroom⟩ := hadd
    rw [OrderedDict.contains_iff] at hunit
    rw [OrderedDict.contains_eq_false] at hnew
    have hkeys : (picked.insert unitId role).keys = picked.keys ++ [unitId] := by
      rw [OrderedDict.keys_insert, if_neg hnew]
    have hlength : picked.keys.length = picked.entries.length := length_map ..
    refine ⟨?_, ?_, ?_⟩ <;> rw [hkeys]
    · rw [head?_append, h.first]
      rfl
    · rw [length_append, length_singleton]
      omega
    · exact append_subset.mpr ⟨h.known, fun k hk => mem_singleton.mp hk ▸ hunit⟩
  · exact h

theorem Picks.addAll (h : Picks units focus picked) (role : Relation) (unitIds : List String) :
    Picks units focus (unitIds.foldl (StarMap.add units role) picked) := by
  induction unitIds generalizing picked with
  | nil => exact h
  | cons unitId unitIds ih => exact ih (h.add role unitId)

theorem picks_around (atlas : Atlas) (hfocus : focus ∈ units.keys) :
    Picks units focus (around atlas focus units) := by
  have hfirst : Picks units focus (OrderedDict.empty.insert focus .focus) := by
    have hkeys : (OrderedDict.empty.insert focus Relation.focus).keys = [focus] := by
      rw [OrderedDict.keys_insert]
      rfl
    refine ⟨?_, ?_, ?_⟩ <;> rw [hkeys]
    · rfl
    · exact Nat.le_of_ble_eq_true rfl
    · exact fun k hk => mem_singleton.mp hk ▸ hfocus
  exact ((hfirst.addAll .prerequisite _).addAll .next _).addAll .neighbour _

end

/-! ## Drawing -/

section

variable {atlas : Atlas} {facts : Facts}

theorem mem_buildMap {units : List CatalogUnit} {star : Star} :
    star ∈ buildMap atlas facts units ↔ ∃ unit ∈ units, ∃ judged,
      facts.unitStates.get? unit.id = some judged ∧ judged.lessonCount ≠ 0 ∧
        star = drawStar atlas facts (unitNames units) unit judged := by
  unfold buildMap
  rw [mem_filterMap]
  refine exists_congr fun unit => ?_
  rw [mem_insertionSort]
  refine and_congr_right fun _ => ?_
  cases facts.unitStates.get? unit.id with
  | none => simp
  | some judged => by_cases hcount : judged.lessonCount = 0 <;> simp [hcount, eq_comm]

/-- A list of units that are stars is drawn one star each. -/
theorem buildMap_ids {units : List CatalogUnit} (h : ∀ unit ∈ units, ∃ judged,
    facts.unitStates.get? unit.id = some judged ∧ judged.lessonCount ≠ 0) :
    (buildMap atlas facts units).map Star.unitId ~ units.map CatalogUnit.id := by
  have hids : (buildMap atlas facts units).map Star.unitId =
      (units.insertionSort (inCourse facts.topics)).map CatalogUnit.id := by
    unfold buildMap
    rw [map_filterMap, ← filterMap_eq_map]
    refine filterMap_congr fun unit hunit => ?_
    obtain ⟨judged, hjudged, hcount⟩ := h unit ((mem_insertionSort _).mp hunit)
    simp [hjudged, hcount, drawStar]
  rw [hids]
  exact (perm_insertionSort _ units).map _

end

/-! ## The units around the focus -/

section

variable {atlas : Atlas} {catalog : Catalog} {states : OrderedDict String UnitMastery}
  {subject : String}

/-- A unit of the subject is a row of the catalog, under its own id, and a star. -/
theorem unitsOf_get? {unitId : String} {unit : CatalogUnit}
    (h : (unitsOf atlas catalog states subject).get? unitId = some unit) :
    unit ∈ catalog.units ∧ unit.id = unitId ∧
      ∃ judged, states.get? unitId = some judged ∧ judged.lessonCount ≠ 0 := by
  obtain ⟨row, hrow, heq⟩ := mem_map.mp (OrderedDict.mem_of_mem_ofPairs (OrderedDict.get?_eq_some.mp h))
  obtain ⟨rfl, rfl⟩ := Prod.mk.inj heq
  obtain ⟨hmem, hstar⟩ := mem_filter.mp hrow
  obtain ⟨judged, hjudged, hcount⟩ := Option.any_eq_true _ _ |>.mp (of_decide_eq_true hstar).2
  exact ⟨hmem, rfl, judged, hjudged, (of_decide_eq_true hcount).ne'⟩

theorem mem_unitsOf_keys {unitId : String} :
    unitId ∈ (unitsOf atlas catalog states subject).keys ↔
      ∃ unit, (unitsOf atlas catalog states subject).get? unitId = some unit := by
  rw [OrderedDict.mem_keys_iff, Option.isSome_iff_exists]

theorem focusStars_subset :
    (focusStars (unitsOf atlas catalog states subject) states).map Prod.fst ⊆
      (unitsOf atlas catalog states subject).keys := by
  intro unitId hunitId
  obtain ⟨star, hstar, rfl⟩ := mem_map.mp hunitId
  obtain ⟨unit, hunit, hjudged⟩ := mem_filterMap.mp hstar
  obtain ⟨judged, -, rfl⟩ := Option.map_eq_some_iff.mp hjudged
  obtain ⟨k, hk⟩ := OrderedDict.mem_values.mp ((mem_insertionSort _).mp hunit)
  obtain ⟨-, rfl, -⟩ := unitsOf_get? hk
  exact mem_unitsOf_keys.mpr ⟨unit, hk⟩

theorem recommendedUnit_mem {stars : List (String × LearningState)} {unitId : String}
    (h : recommendedUnit stars = some unitId) : unitId ∈ stars.map Prod.fst := by
  obtain ⟨star, hstar, rfl⟩ := Option.map_eq_some_iff.mp h
  refine mem_map_of_mem ?_
  rcases Option.or_eq_some_iff.mp hstar with hfound | ⟨-, hfound⟩
  · exact mem_of_find?_eq_some hfound
  · exact mem_of_find?_eq_some hfound

theorem recommendedFocus_mem {stars : List (String × LearningState)}
    (h : recommendedFocus stars ≠ "") : recommendedFocus stars ∈ stars.map Prod.fst := by
  unfold recommendedFocus at h ⊢
  dsimp only at h ⊢
  split
  · rename_i hrecommended
    cases hfound : recommendedUnit stars with
    | none => simp [hfound] at hrecommended
    | some unitId => exact recommendedUnit_mem hfound
  · rename_i hrecommended
    rw [if_neg hrecommended] at h
    cases stars with
    | nil => simp at h
    | cons star stars => exact mem_cons_self

/-- The focus is a unit of the subject, unless there is none. -/
theorem focusOf_mem {evidence : StudentEvidence} {around : String}
    (h : focusOf evidence around (unitsOf atlas catalog states subject) states ≠ "") :
    focusOf evidence around (unitsOf atlas catalog states subject) states ∈
      (unitsOf atlas catalog states subject).keys := by
  unfold focusOf at h ⊢
  split
  · rename_i hasked
    exact OrderedDict.contains_iff.mp hasked.2
  · rename_i hasked
    rw [if_neg hasked] at h
    split
    · rename_i item hlast
      have hitem := mem_filter.mp (mem_of_getLast? hlast)
      exact OrderedDict.contains_iff.mp hitem.2
    · rename_i hlast
      rw [hlast] at h
      exact focusStars_subset (recommendedFocus_mem h)

/-! ## The returned stars -/

/-- The rows that are drawn: those of the picked units. -/
def pickedRows (units : OrderedDict String CatalogUnit) (picked : OrderedDict String Relation) :
    List CatalogUnit :=
  picked.keys.filterMap units.get?

variable {evidence : StudentEvidence} {picked : OrderedDict String Relation}

theorem pickedRows_ids (h : picked.keys ⊆ (focusUnits atlas catalog evidence subject).keys) :
    (pickedRows (focusUnits atlas catalog evidence subject) picked).map CatalogUnit.id =
      picked.keys := by
  unfold pickedRows
  rw [map_filterMap]
  conv_rhs => rw [← map_id picked.keys, ← filterMap_eq_map]
  refine filterMap_congr fun unitId hunitId => ?_
  obtain ⟨unit, hunit⟩ := mem_unitsOf_keys.mp (h hunitId)
  unfold focusUnits
  rw [hunit, Option.map_some, (unitsOf_get? hunit).2.1]
  rfl

/-- One star is drawn for each picked unit. -/
theorem pickedStars_ids (h : picked.keys ⊆ (focusUnits atlas catalog evidence subject).keys) :
    (buildMap atlas (fewFacts catalog evidence)
      (pickedRows (focusUnits atlas catalog evidence subject) picked)).map Star.unitId ~
        picked.keys := by
  rw [← pickedRows_ids h]
  refine buildMap_ids fun unit hunit => ?_
  obtain ⟨unitId, -, hfound⟩ := mem_filterMap.mp hunit
  obtain ⟨-, rfl, hjudged⟩ := unitsOf_get? hfound
  exact hjudged

/-- A drawn star knows why it was picked. -/
theorem pickedStars_relation (h : picked.keys ⊆ (focusUnits atlas catalog evidence subject).keys)
    {star : Star} (hstar : star ∈ buildMap atlas (fewFacts catalog evidence)
      (pickedRows (focusUnits atlas catalog evidence subject) picked)) :
    ∃ relation, picked.get? star.unitId = some relation := by
  have hpicked : star.unitId ∈ picked.keys := (pickedStars_ids h).subset (mem_map_of_mem hstar)
  exact Option.isSome_iff_exists.mp (OrderedDict.mem_keys_iff.mp hpicked)

/-- Sorted by their place in a list, its own items come out as the list. -/
theorem insertionSort_idxOf {keys ids : List String} (hnodup : keys.Nodup) (h : ids ~ keys) :
    ids.insertionSort (fun a b => keys.idxOf a ≤ keys.idxOf b) = keys := by
  have htotal : Std.Total fun a b => keys.idxOf a ≤ keys.idxOf b := ⟨fun _ _ => le_total _ _⟩
  have htrans : IsTrans String fun a b => keys.idxOf a ≤ keys.idxOf b :=
    ⟨fun _ _ _ hab hbc => le_trans hab hbc⟩
  have hkeys : keys.Pairwise fun a b => keys.idxOf a ≤ keys.idxOf b := by
    refine pairwise_iff_getElem.mpr fun i j hi hj hij => ?_
    rw [hnodup.idxOf_getElem i hi, hnodup.idxOf_getElem j hj]
    exact hij.le
  refine Perm.eq_of_pairwise (fun a b _ hb hab hba => ?_) (pairwise_insertionSort _ ids) hkeys
    ((perm_insertionSort _ ids).trans h)
  exact ((idxOf_inj hb).mp (le_antisymm hba hab)).symm

/-- The stars that are sent are those of the picked units, in the order of the picks. -/
theorem neighbourStars_ids (h : picked.keys ⊆ (focusUnits atlas catalog evidence subject).keys) :
    (neighbourStars atlas catalog evidence (focusUnits atlas catalog evidence subject) picked).map
      (fun s => s.star.unitId) = picked.keys := by
  unfold neighbourStars
  dsimp only
  rw [map_insertionSort _ (fun a b => picked.keys.idxOf a ≤ picked.keys.idxOf b)
    (fun s : NeighbourStar => s.star.unitId) _ fun _ _ _ _ => Iff.rfl]
  refine insertionSort_idxOf picked.nodup ?_
  rw [map_filterMap]
  refine Perm.trans (Perm.of_eq ?_) (pickedStars_ids h)
  rw [← filterMap_eq_map]
  refine filterMap_congr fun star hstar => ?_
  obtain ⟨relation, hrelation⟩ := pickedStars_relation h hstar
  rw [hrelation]
  rfl

theorem mem_neighbourStars (h : picked.keys ⊆ (focusUnits atlas catalog evidence subject).keys)
    {star : Star} :
    (∃ s ∈ neighbourStars atlas catalog evidence (focusUnits atlas catalog evidence subject) picked,
        s.star = star) ↔
      star ∈ buildMap atlas (fewFacts catalog evidence)
        (pickedRows (focusUnits atlas catalog evidence subject) picked) := by
  unfold neighbourStars
  simp only [mem_insertionSort, mem_filterMap]
  constructor
  · rintro ⟨s, ⟨star', hstar', hs⟩, rfl⟩
    obtain ⟨relation, -, rfl⟩ := Option.map_eq_some_iff.mp hs
    exact hstar'
  · intro hstar
    obtain ⟨relation, hrelation⟩ := pickedStars_relation h hstar
    exact ⟨_, ⟨star, hstar, by rw [hrelation]; rfl⟩, rfl⟩

end

/-! ## Agreement -/

theorem unitNames_none {units : List CatalogUnit} {unitId : String}
    (h : ∀ row ∈ units, row.id ≠ unitId) : (unitNames units).get? unitId = none := by
  refine Option.eq_none_iff_forall_not_mem.mpr fun name hname => ?_
  obtain ⟨row, hrow, heq⟩ :=
    mem_map.mp (OrderedDict.mem_of_mem_ofPairs (OrderedDict.get?_eq_some.mp hname))
  exact h row hrow (Prod.mk.inj heq).1

theorem unitNames_some {units : List CatalogUnit} {unitId : String}
    (h : ∃ row ∈ units, row.id = unitId) :
    ∃ row ∈ units, row.id = unitId ∧ (unitNames units).get? unitId = some row.title := by
  have hget := OrderedDict.get?_ofPairs_map units CatalogUnit.id CatalogUnit.title unitId
  obtain ⟨row, hrow, hid⟩ := h
  have hsome : (units.reverse.find? fun a => a.id = unitId).isSome :=
    find?_isSome.mpr ⟨row, mem_reverse.mpr hrow, decide_eq_true hid⟩
  obtain ⟨last, hlast⟩ := Option.isSome_iff_exists.mp hsome
  refine ⟨last, mem_reverse.mp (mem_of_find?_eq_some hlast), by simpa using find?_some hlast, ?_⟩
  unfold unitNames
  rw [hget, hlast]
  rfl

theorem skillsOf_eq_iff {atlas : Atlas} {unitId : String}
    {states : OrderedDict String SkillMastery} {locale : String}
    {names names' : OrderedDict String String} :
    skillsOf atlas unitId states locale names = skillsOf atlas unitId states locale names' ↔
      ∀ skill ∈ states.values, skill.unitId = unitId → skill.ready = false →
        ∀ missing ∈ skill.missingUnitIds,
          names.getD missing missing = names'.getD missing missing := by
  unfold skillsOf
  rw [map_inj_left]
  simp only [mem_insertionSort, mem_filter, decide_eq_true_eq, and_imp]
  refine forall₃_congr fun skill _ _ => ?_
  cases hready : skill.ready with
  | true => simp [skillStar, hready]
  | false => simp [skillStar, hready]

/-- Two rows that are drawn alike. -/
structure DrawnAlike (atlas : Atlas) (topics : List Topic) (row row' : CatalogUnit) : Prop where
  title : row.title = row'.title
  topicId : row.topicId = row'.topicId
  order : row.order = row'.order
  position : position atlas topics row = position atlas topics row'

theorem DrawnAlike.symm {atlas : Atlas} {topics : List Topic} {row row' : CatalogUnit}
    (h : DrawnAlike atlas topics row row') : DrawnAlike atlas topics row' row :=
  ⟨h.title.symm, h.topicId.symm, h.order.symm, h.position.symm⟩

theorem DrawnAlike.trans {atlas : Atlas} {topics : List Topic} {row row' row'' : CatalogUnit}
    (h : DrawnAlike atlas topics row row') (h' : DrawnAlike atlas topics row' row'') :
    DrawnAlike atlas topics row row'' :=
  ⟨h.title.trans h'.title, h.topicId.trans h'.topicId, h.order.trans h'.order,
    h.position.trans h'.position⟩

/-- When a unit around the focus is drawn as on the full map: no lighting is known
of it, its rows are alike, and what its skills miss is picked too or has no name. -/
structure DrawnAsInFull (atlas : Atlas) (catalog : Catalog) (evidence : StudentEvidence)
    (picked : OrderedDict String Relation) (unitId : String) : Prop where
  unlit : (fullFacts catalog evidence).litFacts.get? unitId = none
  alike : ∀ row ∈ catalog.units, ∀ row' ∈ catalog.units, row.id = unitId → row'.id = unitId →
    DrawnAlike atlas catalog.topics row row'
  named : ∀ skill ∈ (fullFacts catalog evidence).skillStates.values, skill.unitId = unitId →
    skill.ready = false → ∀ missing ∈ skill.missingUnitIds,
      missing ∈ picked.keys ∨ (unitNames catalog.units).getD missing missing = missing

section

variable {atlas : Atlas} {catalog : Catalog} {evidence : StudentEvidence}

theorem drawStar_eq_iff {names names' : OrderedDict String String} {unit row : CatalogUnit}
    {judged : UnitMastery} (hid : row.id = unit.id) :
    drawStar atlas (fewFacts catalog evidence) names unit judged =
        drawStar atlas (fullFacts catalog evidence) names' row judged ↔
      (fullFacts catalog evidence).litFacts.get? unit.id = none ∧
      DrawnAlike atlas catalog.topics unit row ∧
      skillsOf atlas unit.id (fullFacts catalog evidence).skillStates catalog.locale names =
        skillsOf atlas unit.id (fullFacts catalog evidence).skillStates catalog.locale names' := by
  constructor
  · intro h
    have hlit := Option.map_eq_none_iff.mp (congrArg Star.litAt h).symm
    have hskills : skillsOf atlas unit.id (fullFacts catalog evidence).skillStates catalog.locale
        names = skillsOf atlas row.id (fullFacts catalog evidence).skillStates catalog.locale
          names' := congrArg Star.skills h
    rw [hid] at hlit hskills
    exact ⟨hlit, ⟨congrArg Star.name h, congrArg Star.nebulaId h, congrArg Star.order h,
      congrArg Star.position h⟩, hskills⟩
  · rintro ⟨hlit, halike, hskills⟩
    have hfacts : (fewFacts catalog evidence).litFacts.get? unit.id = none := rfl
    unfold drawStar
    rw [hfacts, hid, hlit, halike.title, halike.topicId, halike.order]
    rw [Star.mk.injEq]
    exact ⟨rfl, rfl, rfl, rfl, rfl, rfl, rfl, rfl, rfl, rfl, rfl, rfl, halike.position, hskills, rfl⟩

variable {subject : String} {picked : OrderedDict String Relation}

/-- What a unit is called around the focus and on the full map. -/
theorem names_agree (h : picked.keys ⊆ (focusUnits atlas catalog evidence subject).keys)
    (halike : ∀ unitId ∈ picked.keys, ∀ row ∈ catalog.units, ∀ row' ∈ catalog.units,
      row.id = unitId → row'.id = unitId → DrawnAlike atlas catalog.topics row row')
    (missing : String) :
    (unitNames (pickedRows (focusUnits atlas catalog evidence subject) picked)).getD missing missing =
        (unitNames catalog.units).getD missing missing ↔
      missing ∈ picked.keys ∨ (unitNames catalog.units).getD missing missing = missing := by
  have hids := pickedRows_ids h
  by_cases hmem : missing ∈ picked.keys
  · refine iff_of_true ?_ (.inl hmem)
    obtain ⟨row, hrow, hid, hname⟩ := unitNames_some (mem_map.mp (hids ▸ hmem))
    obtain ⟨unitId, -, hfound⟩ := mem_filterMap.mp hrow
    have hcatalog := (unitsOf_get? hfound).1
    obtain ⟨row', hrow', hid', hname'⟩ := unitNames_some ⟨row, hcatalog, hid⟩
    unfold OrderedDict.getD
    rw [hname, hname', (halike missing hmem row hcatalog row' hrow' hid hid').title]
  · have hnone : (unitNames (pickedRows (focusUnits atlas catalog evidence subject) picked)).get?
        missing = none :=
      unitNames_none fun row hrow hid => hmem (hids ▸ mem_map.mpr ⟨row, hrow, hid⟩)
    have hget : (unitNames (pickedRows (focusUnits atlas catalog evidence subject) picked)).getD
        missing missing = missing := by
      unfold OrderedDict.getD
      rw [hnone]
      rfl
    rw [hget, or_iff_right hmem, eq_comm]

/-- The stars agree where every row of a picked unit is drawn as the picked one. -/
theorem agrees_iff_rows (h : picked.keys ⊆ (focusUnits atlas catalog evidence subject).keys) :
    (∀ s ∈ neighbourStars atlas catalog evidence (focusUnits atlas catalog evidence subject) picked,
      ∀ t ∈ buildMap atlas (fullFacts catalog evidence) catalog.units,
        t.unitId = s.star.unitId → s.star = t) ↔
      ∀ unitId ∈ picked.keys, ∀ unit,
        (focusUnits atlas catalog evidence subject).get? unitId = some unit →
        ∀ row ∈ catalog.units, row.id = unitId →
          (fullFacts catalog evidence).litFacts.get? unitId = none ∧
          DrawnAlike atlas catalog.topics unit row ∧
          skillsOf atlas unitId (fullFacts catalog evidence).skillStates catalog.locale
              (unitNames (pickedRows (focusUnits atlas catalog evidence subject) picked)) =
            skillsOf atlas unitId (fullFacts catalog evidence).skillStates catalog.locale
              (unitNames catalog.units) := by
  constructor
  · intro hagree unitId hunitId unit hunit row hrow hid
    obtain ⟨-, hself, judged, hjudged, hcount⟩ := unitsOf_get? hunit
    subst hself
    have hdrawn : drawStar atlas (fewFacts catalog evidence)
        (unitNames (pickedRows (focusUnits atlas catalog evidence subject) picked)) unit judged ∈
        buildMap atlas (fewFacts catalog evidence)
          (pickedRows (focusUnits atlas catalog evidence subject) picked) :=
      mem_buildMap.mpr ⟨unit, mem_filterMap.mpr ⟨unit.id, hunitId, hunit⟩, judged, hjudged, hcount, rfl⟩
    obtain ⟨s, hs, hstar⟩ := (mem_neighbourStars h).mpr hdrawn
    have hfull : drawStar atlas (fullFacts catalog evidence) (unitNames catalog.units) row judged ∈
        buildMap atlas (fullFacts catalog evidence) catalog.units :=
      mem_buildMap.mpr ⟨row, hrow, judged, hid ▸ hjudged, hcount, rfl⟩
    have heq := hagree s hs _ hfull (hstar ▸ hid)
    exact (drawStar_eq_iff hid).mp (hstar.symm.trans heq)
  · intro hrows s hs t ht hid
    obtain ⟨unit, hunit, judged, hjudged, -, hstar⟩ :=
      mem_buildMap.mp ((mem_neighbourStars h).mp ⟨s, hs, rfl⟩)
    obtain ⟨unitId, hunitId, hfound⟩ := mem_filterMap.mp hunit
    obtain ⟨-, hself, -⟩ := unitsOf_get? hfound
    subst hself
    obtain ⟨row, hrow, judged', hjudged', -, rfl⟩ := mem_buildMap.mp ht
    rw [hstar] at hid ⊢
    have hrowid : row.id = unit.id := hid
    have hsame : judged' = judged :=
      Option.some_inj.mp (hjudged'.symm.trans (hrowid ▸ hjudged))
    subst hsame
    exact (drawStar_eq_iff hrowid).mpr (hrows unit.id hunitId unit hfound row hrow hrowid)

/-- The stars around the focus are those of the full map exactly where each picked
unit is drawn as in full. -/
theorem agrees_iff (h : picked.keys ⊆ (focusUnits atlas catalog evidence subject).keys) :
    (∀ s ∈ neighbourStars atlas catalog evidence (focusUnits atlas catalog evidence subject) picked,
      ∀ t ∈ buildMap atlas (fullFacts catalog evidence) catalog.units,
        t.unitId = s.star.unitId → s.star = t) ↔
      ∀ unitId ∈ picked.keys, DrawnAsInFull atlas catalog evidence picked unitId := by
  rw [agrees_iff_rows h]
  constructor
  · intro hrows
    have halike : ∀ unitId ∈ picked.keys, ∀ row ∈ catalog.units, ∀ row' ∈ catalog.units,
        row.id = unitId → row'.id = unitId → DrawnAlike atlas catalog.topics row row' := by
      intro unitId hunitId row hrow row' hrow' hid hid'
      obtain ⟨unit, hunit⟩ := mem_unitsOf_keys.mp (h hunitId)
      have halike := (hrows unitId hunitId unit hunit row hrow hid).2.1
      exact halike.symm.trans (hrows unitId hunitId unit hunit row' hrow' hid').2.1
    intro unitId hunitId
    obtain ⟨unit, hunit⟩ := mem_unitsOf_keys.mp (h hunitId)
    obtain ⟨hmem, hself, -⟩ := unitsOf_get? hunit
    obtain ⟨hlit, -, hskills⟩ := hrows unitId hunitId unit hunit unit hmem hself
    refine ⟨hlit, halike unitId hunitId, fun skill hskill hunitSkill hready missing hmissing => ?_⟩
    exact (names_agree h halike missing).mp
      (skillsOf_eq_iff.mp hskills skill hskill hunitSkill hready missing hmissing)
  · intro hdrawn unitId hunitId unit hunit row hrow hid
    obtain ⟨hmem, hself, -⟩ := unitsOf_get? hunit
    refine ⟨(hdrawn unitId hunitId).unlit, (hdrawn unitId hunitId).alike unit hmem row hrow hself hid,
      skillsOf_eq_iff.mpr fun skill hskill hunitSkill hready missing hmissing => ?_⟩
    exact (names_agree h (fun other hother => (hdrawn other hother).alike) missing).mpr
      ((hdrawn unitId hunitId).named skill hskill hunitSkill hready missing hmissing)

/-! ## The answer -/

theorem pickedUnits_subset {around_ : String} :
    (pickedUnits atlas catalog evidence subject around_).keys ⊆
      (focusUnits atlas catalog evidence subject).keys := by
  unfold pickedUnits
  dsimp only
  split
  · exact nil_subset _
  · rename_i hfocus
    exact (picks_around atlas (focusOf_mem hfocus)).known

theorem pickedUnits_first {around_ : String}
    (hfocus : focusOf evidence around_ (focusUnits atlas catalog evidence subject)
      (fewFacts catalog evidence).unitStates ≠ "") :
    (pickedUnits atlas catalog evidence subject around_).keys.head? =
      some (focusOf evidence around_ (focusUnits atlas catalog evidence subject)
        (fewFacts catalog evidence).unitStates) := by
  unfold pickedUnits
  dsimp only
  rw [if_neg hfocus]
  exact (picks_around atlas (focusOf_mem hfocus)).first

theorem pickedUnits_length {around_ : String} :
    (pickedUnits atlas catalog evidence subject around_).keys.length ≤ 15 := by
  unfold pickedUnits
  dsimp only
  split
  · exact Nat.zero_le _
  · rename_i hfocus
    exact (picks_around atlas (focusOf_mem hfocus)).size

end

theorem knowledgeMap_stars {atlas : Atlas} {catalog : Catalog} {evidence : StudentEvidence}
    {subjectId : String} {full : FullMap}
    (h : knowledgeMap atlas catalog evidence subjectId = .ok full) :
    full.stars = buildMap atlas (fullFacts catalog evidence) catalog.units := by
  obtain ⟨-, -, heq⟩ := bind_eq_ok.mp h
  exact congrArg FullMap.stars (Except.ok.inj heq).symm

theorem neighbourhood_ok {atlas : Atlas} {catalog : Catalog} {evidence : StudentEvidence}
    {subjectId around_ : String} {n : Neighbourhood}
    (h : neighbourhood atlas catalog evidence subjectId around_ = .ok n) :
    (∀ focus, n.focus = some focus →
      (pickedUnits atlas catalog evidence n.subjectId around_).keys.head? = some focus) ∧
    n.stars = neighbourStars atlas catalog evidence (focusUnits atlas catalog evidence n.subjectId)
      (pickedUnits atlas catalog evidence n.subjectId around_) := by
  obtain ⟨-, -, heq⟩ := bind_eq_ok.mp h
  have heq := (Except.ok.inj heq).symm
  subst heq
  refine ⟨fun focus hfocus => ?_, rfl⟩
  dsimp only at hfocus ⊢
  split at hfocus
  · cases hfocus
  · rename_i hne
    rw [← hfocus]
    exact pickedUnits_first hne

/-- What the neighbourhood promises against the full map. -/
structure PartOf (n : Neighbourhood) (full : FullMap) : Prop where
  size : n.stars.length ≤ 15
  once : (n.stars.map fun s => s.star.unitId).Nodup
  first : ∀ focus, n.focus = some focus → (n.stars.map fun s => s.star.unitId).head? = some focus
  present : ∀ s ∈ n.stars, ∃ t ∈ full.stars, t.unitId = s.star.unitId
  agrees : ∀ s ∈ n.stars, ∀ t ∈ full.stars, t.unitId = s.star.unitId → s.star = t

theorem picked_present {atlas : Atlas} {catalog : Catalog} {evidence : StudentEvidence}
    {subject : String} {picked : OrderedDict String Relation}
    (h : picked.keys ⊆ (focusUnits atlas catalog evidence subject).keys) {unitId : String}
    (hunitId : unitId ∈ picked.keys) :
    ∃ t ∈ buildMap atlas (fullFacts catalog evidence) catalog.units, t.unitId = unitId := by
  obtain ⟨unit, hunit⟩ := mem_unitsOf_keys.mp (h hunitId)
  obtain ⟨hmem, rfl, judged, hjudged, hcount⟩ := unitsOf_get? hunit
  exact ⟨_, mem_buildMap.mpr ⟨unit, hmem, judged, hjudged, hcount, rfl⟩, rfl⟩

/-- The neighbourhood is a part of the full map exactly where no picked unit has a
lighting, every picked unit has one row, and what the skills miss is picked too. -/
theorem neighbourhood_part_of_full (atlas : Atlas) (catalog : Catalog) (evidence : StudentEvidence)
    (subjectId around_ subjectId' : String) (n : Neighbourhood) (full : FullMap)
    (hn : neighbourhood atlas catalog evidence subjectId around_ = .ok n)
    (hfull : knowledgeMap atlas catalog evidence subjectId' = .ok full) :
    PartOf n full ↔
      ∀ unitId ∈ (pickedUnits atlas catalog evidence n.subjectId around_).keys,
        DrawnAsInFull atlas catalog evidence
          (pickedUnits atlas catalog evidence n.subjectId around_) unitId := by
  obtain ⟨hfirst, hstars⟩ := neighbourhood_ok hn
  have hsubset : (pickedUnits atlas catalog evidence n.subjectId around_).keys ⊆
      (focusUnits atlas catalog evidence n.subjectId).keys := pickedUnits_subset
  have hids : (n.stars.map fun s => s.star.unitId) =
      (pickedUnits atlas catalog evidence n.subjectId around_).keys :=
    hstars ▸ neighbourStars_ids hsubset
  rw [← agrees_iff hsubset, ← hstars, ← knowledgeMap_stars hfull]
  refine ⟨PartOf.agrees, fun hagrees => ⟨?_, ?_, ?_, fun s hs => ?_, hagrees⟩⟩
  · rw [← length_map (f := fun s : NeighbourStar => s.star.unitId), hids]
    exact pickedUnits_length
  · rw [hids]
    exact OrderedDict.nodup _
  · rw [hids]
    exact hfirst
  · rw [knowledgeMap_stars hfull]
    exact picked_present hsubset (hids ▸ mem_map_of_mem hs)

/-- Lower case and rounding that leave everything as it is, and no titles. -/
def plainAtlas : Atlas where
  lower s := s
  round x _ := x
  starPosition _ _ := (0, 0)
  skillTitle skillId _ := skillId
  drawnPrerequisites _ := []

/-- One subject with one unit of one lesson. -/
def oneUnit : Catalog where
  units := [⟨"a", "t", "math", "A", 1, none, none⟩]
  lessons := [⟨"la", "a", "LA", false, 1, [], 0⟩]
  exercises _ := []
  skillIdsByUnit _ := []
  subjects := [⟨"math", "Math", 1⟩]
  topics := [⟨"t", "T", "math", 1⟩]
  rolloutSubjects := []
  indexed _ := []
  locale := "de"

/-- A student who finished these lessons of the unit. -/
def finished (lessonIds : List String) : StudentEvidence where
  completedLessonIds := lessonIds.toFinset
  answeredRight := ∅
  starQuizPassed := ∅
  completions := lessonIds.map fun lessonId => ⟨lessonId, "a", 0⟩
  completed := by rw [List.map_map]; exact congrArg List.toFinset (List.map_id _).symm
  litFacts := .empty
  litLedgerOpen := true
  starQuizRetryAt := .empty
  reviewDueByUnit := .empty
  now := 7

theorem map_eq_ok {ε α β : Type} {x : Except ε α} {f : α → β} {b : β}
    (h : x.map f = .ok b) : ∃ a, x = .ok a ∧ f a = b := by
  cases x with
  | error e => cases h
  | ok a => exact ⟨a, rfl, Except.ok.inj h⟩

/-- A unit not begun is drawn alike on both. -/
theorem neighbourhood_part_of_full_unlit : ∃ n full,
    neighbourhood plainAtlas oneUnit (finished []) "math" "a" = .ok n ∧
    knowledgeMap plainAtlas oneUnit (finished []) "math" = .ok full ∧
    (PartOf n full ↔ ∀ unitId ∈ (pickedUnits plainAtlas oneUnit (finished []) n.subjectId "a").keys,
      DrawnAsInFull plainAtlas oneUnit (finished [])
        (pickedUnits plainAtlas oneUnit (finished []) n.subjectId "a") unitId) :=
  ⟨_, _, rfl, rfl, neighbourhood_part_of_full plainAtlas oneUnit (finished []) "math" "a" "math" _ _ rfl rfl⟩

/-- The lit unit has its moment on the full map, and none in the neighbourhood. -/
theorem lighting_left_out : ∃ n full,
    neighbourhood plainAtlas oneUnit (finished ["la"]) "math" "a" = .ok n ∧
    knowledgeMap plainAtlas oneUnit (finished ["la"]) "math" = .ok full ∧ ¬ PartOf n full := by
  have hn : (neighbourhood plainAtlas oneUnit (finished ["la"]) "math" "a").map
      (fun n => n.stars.map fun s => (s.star.unitId, s.star.litAt)) = .ok [("a", none)] := by
    decide +kernel
  have hfull : (knowledgeMap plainAtlas oneUnit (finished ["la"]) "math").map
      (fun full => full.stars.map fun t => (t.unitId, t.litAt)) = .ok [("a", some 7)] := by
    decide +kernel
  obtain ⟨n, hn, hstars⟩ := map_eq_ok hn
  obtain ⟨full, hfull, hfullStars⟩ := map_eq_ok hfull
  refine ⟨n, full, hn, hfull, fun h => ?_⟩
  obtain ⟨s, hs, hsEq⟩ := mem_map.mp (hstars ▸ mem_singleton_self _)
  obtain ⟨t, ht, htEq⟩ := mem_map.mp (hfullStars ▸ mem_singleton_self _)
  obtain ⟨hid, hunlit⟩ := Prod.mk.inj hsEq
  obtain ⟨hid', hlit⟩ := Prod.mk.inj htEq
  have hsame := h.agrees s hs t ht (hid'.trans hid.symm)
  rw [hsame, hlit] at hunlit
  cases hunlit

end Stoa.StarMap
