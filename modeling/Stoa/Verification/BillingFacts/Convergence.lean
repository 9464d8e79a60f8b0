import Stoa.Model.BillingFacts
import Stoa.Store.Runs
import Stoa.Store.Solo
import Stoa.Store.Versioned

/-! # Facts converge

Whatever the order in which facts are delivered, the row of an object ends as its
latest fact. -/

namespace Stoa.Billing

open RowStore

variable {facts : List BillingFact} {faults : Faults}

/-- The rows of the facts. -/
def Key.IsFact : Key → Prop
  | .objectFact _ _ _ => True
  | _ => False

/-- Any number of deliveries of a collection of facts. Other code may write any
row but those of the facts. -/
def factService (facts : List BillingFact) (faults : Faults) :
    Service Key Row { fact // fact ∈ facts } (Except Failure FactRecordResult) where
  body := fun fact => recordProviderFact fact.val
  mayStart := fun _ _ => True
  drift := fun t t' => t'.AgreesOn Key.IsFact t
  faults := faults

/-- The facts of one object have distinct versions. -/
def DistinctVersions (facts : List BillingFact) : Prop :=
  ∀ fact ∈ facts, ∀ other ∈ facts, fact.key = other.key → fact.factVersion = other.factVersion →
    fact = other

def NoFacts (t : Table Key Row) : Prop := ∀ k, k.IsFact → t.row k = none

/-- Every row is that of a fact of the collection. -/
def FactsStored (facts : List BillingFact) (t : Table Key Row) : Prop :=
  ∀ command kind object row, t.row (.objectFact command kind object) = some row →
    ∃ fact ∈ facts, fact.key = .objectFact command kind object ∧ row = fact.item ∧
      fact.observedAt.utcoffset.isSome

/-- Rows stay, or are replaced by those of later versions. -/
def FactsAdvance (t t' : Table Key Row) : Prop :=
  ∀ command kind object, Newer (fun row : ObjectFactRow => row.objectVersion.val)
    (t.row (.objectFact command kind object)) (t'.row (.objectFact command kind object))

/-- One commit writes one fact, over an older one or none. -/
structure Recorded (fact : BillingFact) (t t' : Table Key Row) : Prop where
  aware : fact.observedAt.utcoffset.isSome
  older : ∀ row, t.row fact.key = some row → row.objectVersion.val < fact.factVersion.val
  result : t' = t.set fact.key (some fact.item)

/-- What a disposition says about the row of the fact. -/
def Truthful (fact : BillingFact) (t : Table Key Row) : FactRecordDisposition → Prop
  | .created => ∃ row, t.row fact.key = some row ∧ row = fact.item
  | .advanced => ∃ row current, t.row fact.key = some row ∧
      billingFactFromItem row = .ok current ∧ current.Same fact
  | .duplicate => ∃ row current, t.row fact.key = some row ∧
      billingFactFromItem row = .ok current ∧ current.Same fact
  | .stale => ∃ row, t.row fact.key = some row ∧ fact.factVersion.val ≤ row.objectVersion.val
  | .retryable => True

/-- A call returns a truthful disposition, if it returns one. -/
def OwesTruth (fact : BillingFact) : Post Key Row (Except Failure FactRecordResult) :=
  fun outcome _ t => ∀ result, outcome = .ok result → Truthful fact t result.disposition

theorem NoFacts.stored {t : Table Key Row} (h : NoFacts t) : FactsStored facts t := by
  intro command kind object row hrow
  rw [h (.objectFact command kind object) trivial] at hrow
  cases hrow

theorem Recorded.stored {t t' : Table Key Row} {fact : BillingFact} (hfact : fact ∈ facts)
    (h : Recorded fact t t') (hstored : FactsStored facts t) : FactsStored facts t' := by
  intro command kind object row hrow
  rw [h.result] at hrow
  by_cases hkey : .objectFact command kind object = fact.key
  · cases hkey
    cases hrow.symm.trans (Table.row_set_self t fact.key (some fact.item))
    exact ⟨fact, hfact, rfl, rfl, h.aware⟩
  · rw [Table.row_set_of_ne _ _ hkey] at hrow
    exact hstored command kind object row hrow

theorem Recorded.advance {t t' : Table Key Row} {fact : BillingFact} (h : Recorded fact t t') :
    FactsAdvance t t' := by
  intro command kind object
  rw [h.result]
  by_cases hkey : .objectFact command kind object = fact.key
  · cases hkey
    rw [Table.row_set_self]
    cases hrow : t.row (.objectFact fact.checkoutCommandId.val fact.kind
      fact.providerObjectIdDigest) with
    | none => trivial
    | some row => exact .inr (h.older row hrow)
  · rw [Table.row_set_of_ne _ _ hkey]
    exact .refl _ _

def factContract (facts : List BillingFact) (faults : Faults) :
    Contract (factService facts faults) where
  Inv := FactsStored facts
  Rely := FactsAdvance
  refl := fun _ _ _ _ => .refl _ _
  trans := fun h h' command kind object => (h command kind object).trans (h' command kind object)
  Move := fun fact => Recorded fact.val
  move_inv := fun {fact} _ _ hstored h => h.stored fact.property hstored
  move_rely := fun _ h => h.advance
  drift_inv := fun hstored hd command kind object row hrow =>
    hstored command kind object row ((hd (.objectFact command kind object) trivial).symm.trans hrow)
  drift_rely := fun _ hd command kind object => by
    rw [hd (.objectFact command kind object) trivial]
    exact .refl _ _

/-! ## One call -/

theorem billingFactFromItem_eq_ok {row : ObjectFactRow} {fact : BillingFact}
    (h : billingFactFromItem row = .ok fact) : fact.factVersion = row.objectVersion := by
  unfold billingFactFromItem at h
  split at h
  · cases h
  · split at h <;> cases h
    rfl

/-- A written fact reads back as itself. -/
theorem billingFactFromItem_item {fact : BillingFact} (h : fact.observedAt.utcoffset.isSome) :
    billingFactFromItem fact.item = .ok fact := by
  have haware : fact.observedAt.utcoffset ≠ none := Option.isSome_iff_ne_none.mp h
  simp [billingFactFromItem, BillingFact.item, haware]

/-- What is classified is said of the row that is stored. -/
theorem classifyFactReplay_truthful (fact : BillingFact) (t : Table Key Row) :
    Truthful fact t (classifyFactReplay (t.row fact.key) fact).disposition := by
  unfold classifyFactReplay
  cases hrow : t.row fact.key with
  | none => trivial
  | some row =>
    rw [Option.map_some]
    cases hcurrent : billingFactFromItem row with
    | error failure => trivial
    | ok current =>
      have hversion := billingFactFromItem_eq_ok hcurrent
      dsimp only
      split
      · refine ⟨row, hrow, ?_⟩
        rw [← hversion]
        omega
      · split
        · rename_i heq
          split
          · exact ⟨row, current, hrow, hcurrent, ‹_›⟩
          · refine ⟨row, hrow, ?_⟩
            rw [← hversion, heq]
        · trivial

/-- What the read after a new fact makes of the row. -/
theorem createdReplay_safe (fact : BillingFact) (own : List (Table Key Row × Table Key Row)) (u : Table Key Row) :
    (Program.read fact.key fun
        | none => .ret (.ok ⟨.retryable, none⟩)
        | some replay => .ret (.ok (classifyFactReplay replay fact)) :
      RepoCall FactRecordResult).Safe faults (factContract facts faults).toInterference
        (Recorded fact) (OwesTruth fact) own u := by
  refine Program.safe_read fun v _ _ => ⟨?_, fun _ => ?_⟩
  · rintro result ⟨⟩
    exact classifyFactReplay_truthful fact v
  · rintro result ⟨⟩
    trivial

theorem createFact_safe {fact : BillingFact} (haware : fact.observedAt.utcoffset.isSome)
    {own : List (Table Key Row × Table Key Row)} {t : Table Key Row} :
    (createFact fact fact.item).Safe faults (factContract facts faults).toInterference
      (Recorded fact) (OwesTruth fact) own t := by
  refine Program.safe_transact (fun u _ _ => createdReplay_safe fact own u) fun u _ _ hadmits => ⟨?_, ?_,
    createdReplay_safe fact _ _⟩
  · have habsent := hadmits.2 (.putNew fact.key fact.item) (by simp)
    refine ⟨haware, fun row hrow => ?_, rfl⟩
    cases (Option.isNone_iff_eq_none.mp habsent).symm.trans hrow
  · rintro result ⟨⟩
    exact ⟨fact.item, Table.row_set_self _ _ _, rfl⟩

/-- What the read after a newer version makes of the row. -/
theorem advancedReplay_safe (fact : BillingFact) (own : List (Table Key Row × Table Key Row)) (u : Table Key Row) :
    (Program.read fact.key fun
        | none => .ret (.ok ⟨.retryable, none⟩)
        | some replay =>
          let classified := classifyFactReplay replay fact
          if classified.disposition = .duplicate then .ret (.ok ⟨.advanced, some fact⟩)
          else .ret (.ok classified) :
      RepoCall FactRecordResult).Safe faults (factContract facts faults).toInterference
        (Recorded fact) (OwesTruth fact) own u := by
  refine Program.safe_read fun v _ _ => ⟨?_, fun _ => ?_⟩
  · have htruthful := classifyFactReplay_truthful fact v
    dsimp only
    split
    · rename_i hduplicate
      rintro result ⟨⟩
      rw [hduplicate] at htruthful
      exact htruthful
    · rintro result ⟨⟩
      exact htruthful
  · rintro result ⟨⟩
    trivial

theorem advanceFact_safe {fact current : BillingFact}
    (haware : fact.observedAt.utcoffset.isSome)
    {own : List (Table Key Row × Table Key Row)} {t : Table Key Row} :
    (advanceFact fact fact.item current).Safe faults (factContract facts faults).toInterference
      (Recorded fact) (OwesTruth fact) own t := by
  refine Program.safe_transact (fun u _ _ => advancedReplay_safe fact own u) fun u _ _ hadmits => ⟨?_, ?_,
    advancedReplay_safe fact _ _⟩
  · have hcondition := hadmits.2 (.put fact.key fact.item
      (Option.any (advanceCondition current.factVersion.val fact.factVersion.val))) (by simp)
    refine ⟨haware, fun row hrow => ?_, rfl⟩
    obtain ⟨found, hfound, hmet⟩ := (Option.any_eq_true _ _).mp hcondition
    cases hrow.symm.trans hfound
    exact (of_decide_eq_true hmet).2.2.2
  · rintro result ⟨⟩
    exact ⟨fact.item, fact, Table.row_set_self _ _ _, billingFactFromItem_item haware,
      rfl, rfl, rfl, rfl, rfl, rfl, rfl⟩

theorem recordProviderFact_safe (fact : BillingFact) (t : Table Key Row) :
    (recordProviderFact fact).Safe faults (factContract facts faults).toInterference
      (Recorded fact) (OwesTruth fact) [] t := by
  unfold recordProviderFact
  cases hitem : factItem fact with
  | error failure =>
    rintro result ⟨⟩
  | ok item =>
    unfold factItem at hitem
    split at hitem <;> cases hitem
    rename_i hnaive
    have haware : fact.observedAt.utcoffset.isSome :=
      Option.isSome_iff_ne_none.mpr fun h => hnaive (Option.isNone_iff_eq_none.mpr h)
    refine Program.safe_read fun u _ _ => ⟨?_, fun _ => ?_⟩
    · have htruthful := classifyFactReplay_truthful fact u
      cases hrow : u.row fact.key with
      | none => exact createFact_safe haware
      | some row =>
        rw [hrow] at htruthful
        dsimp only
        split
        · rintro result ⟨⟩
          exact htruthful
        · split
          · rintro result ⟨⟩
            trivial
          · exact advanceFact_safe haware
    · rintro result ⟨⟩
      trivial

/-! ## Every run -/

/-- The call has returned a disposition that does not ask for another call. -/
def IsSettled (r : Return Key Row { fact // fact ∈ facts } (Except Failure FactRecordResult)) :
    Prop :=
  ∃ result, r.result = .ok result ∧ result.disposition ≠ .retryable

/-- No fact of the same object has a greater version. -/
def IsLatest (facts : List BillingFact) (fact : BillingFact) : Prop :=
  fact ∈ facts ∧ ∀ other ∈ facts, other.key = fact.key →
    other.factVersion.val ≤ fact.factVersion.val

section

variable {t : Table Key Row}
  {s : State Key Row { fact // fact ∈ facts } (Except Failure FactRecordResult)}

theorem factSound (hnone : NoFacts t) (h : Reachable (factService facts faults) t s) :
    Sound (factContract facts faults) (fun _ fact => OwesTruth fact.val) s :=
  Reachable.sound (Γ := factContract facts faults) h hnone.stored
    fun fact u _ => recordProviderFact_safe fact.val u

/-- A settled call leaves a row at least as late as its fact. -/
theorem Truthful.stored {fact : BillingFact} {disposition : FactRecordDisposition}
    (h : Truthful fact t disposition) (hne : disposition ≠ .retryable) :
    ∃ row, t.row fact.key = some row ∧ fact.factVersion.val ≤ row.objectVersion.val := by
  have hsame : ∀ row current, billingFactFromItem row = .ok current → current.Same fact →
      fact.factVersion.val ≤ row.objectVersion.val := by
    intro row current hcurrent hsame
    have hversion : current.factVersion = fact.factVersion := hsame.2.2.2.2.2.1
    rw [← billingFactFromItem_eq_ok hcurrent, hversion]
  cases disposition with
  | created =>
      obtain ⟨_, hrow, rfl⟩ := h
      exact ⟨fact.item, hrow, le_rfl⟩
  | advanced =>
      obtain ⟨row, current, hrow, hcurrent, heq⟩ := h
      exact ⟨row, hrow, hsame row current hcurrent heq⟩
  | duplicate =>
      obtain ⟨row, current, hrow, hcurrent, heq⟩ := h
      exact ⟨row, hrow, hsame row current hcurrent heq⟩
  | stale => exact h
  | retryable => exact (hne rfl).elim

/-- What is stored once a fact has been settled. -/
theorem stored_of_settled (hnone : NoFacts t) (h : Reachable (factService facts faults) t s)
    {r : Return Key Row { fact // fact ∈ facts } (Except Failure FactRecordResult)}
    (hr : r ∈ s.returned) (hsettled : IsSettled r) :
    ∃ row, s.table.row r.call.val.key = some row ∧
      r.call.val.factVersion.val ≤ row.objectVersion.val := by
  obtain ⟨result, hresult, hdisposition⟩ := hsettled
  obtain ⟨htruth, -, -, -, hrely⟩ := (factSound hnone h).returned r hr
  obtain ⟨row, hrow, hle⟩ := (htruth result hresult).stored hdisposition
  have hnewer := hrely r.call.val.checkoutCommandId.val r.call.val.kind
    r.call.val.providerObjectIdDigest
  rw [hrow] at hnewer
  obtain ⟨row', hrow'⟩ := hnewer.exists_some
  rw [hrow'] at hnewer
  exact ⟨row', hrow', hle.trans hnewer.version_le⟩

/-- Once the latest fact of an object has been settled, it is what is stored. -/
theorem latest_stored (hdistinct : DistinctVersions facts) (hnone : NoFacts t)
    (h : Reachable (factService facts faults) t s)
    {r : Return Key Row { fact // fact ∈ facts } (Except Failure FactRecordResult)}
    (hr : r ∈ s.returned) (hsettled : IsSettled r) (hlatest : IsLatest facts r.call.val) :
    s.table.row r.call.val.key = some r.call.val.item := by
  obtain ⟨row, hrow, hle⟩ := stored_of_settled hnone h hr hsettled
  obtain ⟨found, hfound, hkey, rfl, -⟩ := (factSound hnone h).inv _ _ _ row hrow
  have hversion : found.factVersion = r.call.val.factVersion := by
    have hge := hlatest.2 found hfound hkey
    cases hv : found.factVersion
    cases hw : r.call.val.factVersion
    simp only [BillingFact.item, hv, hw] at hle hge
    congr
    omega
  rw [hrow, hdistinct found hfound _ r.call.property hkey hversion]

end

/-- Provider facts converge: the version of a row never decreases, dispositions
are truthful, and once every fact has been settled each row is that of the latest
fact of its object. -/
theorem facts_converge {t : Table Key Row}
    {s : State Key Row { fact // fact ∈ facts } (Except Failure FactRecordResult)}
    (hdistinct : DistinctVersions facts) (hnone : NoFacts t)
    (h : Reachable (factService facts faults) t s) :
    (∀ s', Step (factService facts faults) s s' → FactsAdvance s.table s'.table) ∧
    (∀ r ∈ s.returned, ∀ result, r.result = .ok result →
      Truthful r.call.val r.table result.disposition) ∧
    ((∀ fact ∈ facts, ∃ r ∈ s.returned, r.call.val = fact ∧ IsSettled r) →
      ∀ fact, IsLatest facts fact → s.table.row fact.key = some fact.item) := by
  have hs := factSound hnone h
  refine ⟨fun s' hstep => hs.step_rely hstep, fun r hr => (hs.returned r hr).1, ?_⟩
  intro hsettled fact hlatest
  obtain ⟨r, hr, rfl, hreturned⟩ := hsettled fact hlatest.1
  exact latest_stored hdistinct hnone h hr hreturned hlatest

/-! ## Two versions of one fact -/

namespace Delivery

def fact (version : Version) : BillingFact where
  factId := ⟨"fact", by decide⟩
  checkoutCommandId := ⟨"checkout", by decide⟩
  kind := .invoicePaid
  providerEventIdDigest := .ofDigit '4' isLowerHex_4
  providerObjectIdDigest := .ofDigit '5' isLowerHex_5
  factVersion := version
  observedAt := ⟨0, some 0⟩

theorem one_isPositive : IsPositive 1 := by decide

def older : BillingFact := fact ⟨1, one_isPositive⟩

def newer : BillingFact := fact ⟨2, by decide⟩

abbrev Delivered : Type :=
  State Key Row { fact // fact ∈ [older, newer] } (Except Failure FactRecordResult)

def deliver (fact : { fact // fact ∈ [older, newer] }) (s : Delivered) : Delivered :=
  s.solo (factService [older, newer] .strongReads) fact []

/-- The newer fact is delivered first. -/
def swapped : Delivered :=
  deliver ⟨older, by simp⟩ (deliver ⟨newer, by simp⟩ (.initial .empty))

theorem swapped_reachable : Reachable (factService [older, newer] .strongReads) .empty swapped :=
  (State.solo_steps trivial trivial trivial []).trans (State.solo_steps trivial trivial trivial [])

end Delivery

/-- Delivered in the wrong order, the newer fact is what is stored. -/
theorem facts_converge_sample :
    Delivery.swapped.table.row Delivery.newer.key = some Delivery.newer.item := by
  have hdistinct : DistinctVersions [Delivery.older, Delivery.newer] := by
    unfold DistinctVersions
    decide
  refine (facts_converge hdistinct (fun _ _ => rfl) Delivery.swapped_reachable).2.2 ?_ _ ⟨by simp, by decide⟩
  have hrun : ∀ fact ∈ [Delivery.older, Delivery.newer],
      (Delivery.swapped.returned.any fun r => r.call.val = fact ∧
        r.result.toOption.any fun result => result.disposition ≠ .retryable) = true := by
    decide +kernel
  intro fact hfact
  obtain ⟨r, hr, hreturned⟩ := List.any_eq_true.mp (hrun fact hfact)
  obtain ⟨hcall, hresult⟩ := of_decide_eq_true hreturned
  obtain ⟨result, hok, hdisposition⟩ := (Option.any_eq_true _ _).mp hresult
  refine ⟨r, hr, hcall, result, ?_, of_decide_eq_true hdisposition⟩
  cases hx : r.result with
  | error failure => simp [hx, Except.toOption] at hok
  | ok found => simpa [hx, Except.toOption] using hok

end Stoa.Billing
