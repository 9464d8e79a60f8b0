import Stoa.Data.JsonReading
import Stoa.Model.AskPrompt

/-! # What the model is asked with

Turns of one speaker are merged, so that the speakers alternate. Nothing puts the student
first where the cut of the history leaves an answer there. -/

namespace Stoa.AskPrompt

open PyText JsonText

/-! ## Merging -/

/-- A message says what some turns of one speaker say, one after the other. -/
structure Says (turns : List Turn) (merged : Turn) : Prop where
  nonempty : turns ≠ []
  role : ∀ turn ∈ turns, turn.role = merged.role
  content : merged.content = join (str "\n") (turns.map Turn.content)

theorem join_append_singleton (sep : Str) {parts : List Str} (hne : parts ≠ []) (s : Str) :
    join sep (parts ++ [s]) = join sep parts ++ sep ++ s := by
  induction parts with
  | nil => exact absurd rfl hne
  | cons p parts ih =>
      cases parts with
      | nil => rfl
      | cons q parts =>
          change p ++ sep ++ join sep ((q :: parts) ++ [s]) = p ++ sep ++ join sep (q :: parts) ++ sep ++ s
          rw [ih (by simp)]
          simp

theorem Says.append {turns : List Turn} {merged turn : Turn} (h : Says turns merged) (hrole : merged.role = turn.role) :
    Says (turns ++ [turn]) ⟨merged.role, merged.content ++ str "\n" ++ turn.content⟩ where
  nonempty := by simp
  role t ht := by
    rcases List.mem_append.mp ht with ht | ht
    · exact h.role t ht
    · rw [List.mem_singleton.mp ht, hrole]
  content := by
    rw [List.map_append, List.map_singleton, join_append_singleton _ (by simpa using h.nonempty), h.content]

/-- How turns were merged: into groups of one speaker, next to each other. -/
structure Merges (turns merged : List Turn) (groups : List (List Turn)) : Prop where
  parts : groups.flatten = turns
  pairs : List.Forall₂ Says groups merged
  alternate : (merged.map Turn.role).IsChain (· ≠ ·)

theorem mergeFrom_merges (rest : List Turn) {turns : List Turn} {merged : Turn} (h : Says turns merged) :
    ∃ groups, Merges (turns ++ rest) (mergeFrom merged rest) groups ∧
      (mergeFrom merged rest).head?.map Turn.role = some merged.role := by
  induction rest generalizing turns merged with
  | nil => exact ⟨[turns], ⟨by simp, .cons h .nil, .singleton _⟩, rfl⟩
  | cons turn rest ih =>
      rw [mergeFrom]
      by_cases hrole : merged.role = turn.role
      · rw [if_pos hrole]
        obtain ⟨groups, hmerges, hhead⟩ := ih (h.append hrole)
        exact ⟨groups, ⟨hmerges.parts.trans (by simp), hmerges.pairs, hmerges.alternate⟩, hhead⟩
      · rw [if_neg hrole]
        have hturn : Says [turn] turn := ⟨by simp, fun t ht => by rw [List.mem_singleton.mp ht], rfl⟩
        obtain ⟨groups, hmerges, hhead⟩ := ih hturn
        refine ⟨turns :: groups, ⟨?_, .cons h hmerges.pairs, ?_⟩, rfl⟩
        · rw [List.flatten_cons, hmerges.parts]
          rfl
        · rw [List.map_cons]
          refine List.isChain_cons.mpr ⟨fun role hmem => ?_, hmerges.alternate⟩
          rw [List.head?_map, hhead] at hmem
          cases hmem
          exact hrole

/-- Merging leaves out nothing, and ends with the turn that came last. -/
theorem merge_merges {turns : List Turn} {last : Turn} :
    ∃ groups, Merges (turns ++ [last]) (merge (turns ++ [last])) groups ∧
      (merge (turns ++ [last])).head?.map Turn.role = (turns ++ [last]).head?.map Turn.role := by
  have hsingle : ∀ turn : Turn, Says [turn] turn := fun turn =>
    ⟨by simp, fun t ht => by rw [List.mem_singleton.mp ht], rfl⟩
  cases turns with
  | nil => exact mergeFrom_merges [] (hsingle last)
  | cons turn turns => exact mergeFrom_merges (turns ++ [last]) (hsingle turn)

/-- A group that ends with a turn is said by a message that ends with it. -/
theorem Says.last {turns : List Turn} {last message : Turn} (h : Says (turns ++ [last]) message) :
    message.role = last.role ∧ ∃ before, message.content = before ++ last.content := by
  refine ⟨(h.role last (by simp)).symm, ?_⟩
  rw [h.content, List.map_append, List.map_singleton]
  by_cases hturns : turns = []
  · subst hturns
    exact ⟨[], rfl⟩
  · exact ⟨_, join_append_singleton _ (by simpa using hturns) _⟩

theorem last_of_pairs {groups : List (List Turn)} {merged turns : List Turn} {last : Turn}
    (h : List.Forall₂ Says groups merged) (hparts : groups.flatten = turns ++ [last]) :
    ∃ earlier message before, merged = earlier ++ [message] ∧ message.role = last.role ∧
      message.content = before ++ last.content := by
  induction h generalizing turns with
  | nil => simp at hparts
  | @cons group message groups merged hgroup hrest ih =>
      rw [List.flatten_cons] at hparts
      rcases List.eq_nil_or_concat groups.flatten with hnone | ⟨front, final, hfront⟩
      · -- No group follows, as each of them has a turn.
        cases hrest with
        | nil =>
            rw [List.flatten_nil, List.append_nil] at hparts
            subst hparts
            obtain ⟨hrole, before, hcontent⟩ := hgroup.last
            exact ⟨[], message, before, rfl, hrole, hcontent⟩
        | cons hnext _ =>
            rw [List.flatten_cons, List.append_eq_nil_iff] at hnone
            exact absurd hnone.1 hnext.nonempty
      · rw [List.concat_eq_append] at hfront
        have hfinal : final = last := by
          rw [hfront, ← List.append_assoc] at hparts
          exact (List.append_inj' hparts rfl).2 |> List.singleton_inj.mp
        subst hfinal
        obtain ⟨earlier, message', before, rfl, hrole, hcontent⟩ := ih hfront
        exact ⟨message :: earlier, message', before, rfl, hrole, hcontent⟩

/-! ## Images -/

/-- A message has the speaker and the text of a turn. -/
structure Carries (turn : Turn) (message : Message) : Prop where
  role : message.role = turn.role
  said : message.content.said = turn.content

theorem withImages_carries (b64encode : List UInt8 → Str) (images : List PromptImage) (turns : List Turn) :
    List.Forall₂ Carries turns (withImages b64encode images turns) := by
  induction turns with
  | nil => exact .nil
  | cons turn rest ih =>
      cases rest with
      | nil =>
          refine .cons ⟨rfl, ?_⟩ .nil
          dsimp only
          split <;> rfl
      | cons next rest => exact .cons ⟨rfl, rfl⟩ ih

theorem last_of_carries {turns : List Turn} {last : Turn} {messages : List Message}
    (h : List.Forall₂ Carries (turns ++ [last]) messages) :
    ∃ earlier message, messages = earlier ++ [message] ∧ Carries last message := by
  induction turns generalizing messages with
  | nil =>
      cases h with
      | cons hlast hrest =>
          cases hrest
          exact ⟨[], _, rfl, hlast⟩
  | cons turn turns ih =>
      cases h with
      | cons hfirst hrest =>
          obtain ⟨earlier, message, rfl, hlast⟩ := ih hrest
          exact ⟨_ :: earlier, message, rfl, hlast⟩

theorem roles_of_carries {turns : List Turn} {messages : List Message} (h : List.Forall₂ Carries turns messages) :
    messages.map Message.role = turns.map Turn.role := by
  induction h with
  | nil => rfl
  | cons hfirst _ ih => rw [List.map_cons, List.map_cons, hfirst.role, ih]

/-! ## The messages -/

section

variable (isAlnum : ℕ → Bool) (toFloat : ℚ → JsonText.Float) (b64encode : List UInt8 → Str) (nonces : Nonces)
  (content : Str) (history : List Row) (beside : Beside)

/-- The turns that are shown to the model. -/
def shown : List Turn :=
  (recent history).map Row.turn ++ [⟨.user, currentTurn isAlnum toFloat nonces content beside⟩]

/-- A message says what some turns of its speaker say, one after the other. -/
structure Message.Joins (turns : List Turn) (message : Message) : Prop where
  nonempty : turns ≠ []
  role : ∀ turn ∈ turns, turn.role = message.role
  content : message.content.said = join (str "\n") (turns.map Turn.content)

/-- What the interface of the model asks of its messages, and that nothing is lost. -/
structure ValidMessages (messages : List Message) : Prop where
  starts : messages.head?.map Message.role = some .user
  alternate : (messages.map Message.role).IsChain (· ≠ ·)
  ends : ∃ earlier last before blocks, messages = earlier ++ [last] ∧ last.role = .user ∧
    last.content.said = before ++ content ++ blocks ∧
    content ++ blocks = currentTurn isAlnum toFloat nonces content beside
  complete : ∃ groups, groups.flatten = shown isAlnum toFloat nonces content history beside ∧
    List.Forall₂ Message.Joins groups messages

/-- The first of the recent rows is not an answer. -/
def StartsWithStudent : Prop := ∀ row ∈ (recent history).head?, row.role = .student

theorem currentTurn_content : ∃ blocks, content ++ blocks = currentTurn isAlnum toFloat nonces content beside := by
  unfold currentTurn
  rw [List.append_assoc, List.append_assoc, List.append_assoc]
  exact ⟨_, rfl⟩

theorem shown_head : (shown isAlnum toFloat nonces content history beside).head?.map Turn.role = some .user ↔
    StartsWithStudent history := by
  unfold shown StartsWithStudent
  cases recent history with
  | nil => simp
  | cons row rest =>
      simp only [List.map_cons, List.cons_append, List.head?_cons, Option.map_some, Option.some.injEq, Option.mem_def,
        forall_eq', Row.turn]
      cases row.role <;> simp

theorem joins_of_carries {groups : List (List Turn)} {merged : List Turn} {messages : List Message}
    (hpairs : List.Forall₂ Says groups merged) (hcarries : List.Forall₂ Carries merged messages) :
    List.Forall₂ Message.Joins groups messages := by
  induction hpairs generalizing messages with
  | nil =>
      cases hcarries
      exact .nil
  | cons hfirst _ ih =>
      cases hcarries with
      | cons hcarry hrest =>
          refine .cons ⟨hfirst.nonempty, fun turn hturn => ?_, ?_⟩ (ih hrest)
          · exact (hfirst.role turn hturn).trans hcarry.role.symm
          · exact hcarry.said.trans hfirst.content

theorem shown_merges : ∃ groups, Merges (shown isAlnum toFloat nonces content history beside)
      (merge (shown isAlnum toFloat nonces content history beside)) groups ∧
    (merge (shown isAlnum toFloat nonces content history beside)).head?.map Turn.role =
      (shown isAlnum toFloat nonces content history beside).head?.map Turn.role :=
  merge_merges

theorem buildMessages_roles :
    (buildMessages isAlnum toFloat b64encode nonces content history beside).map Message.role =
      (merge (shown isAlnum toFloat nonces content history beside)).map Turn.role :=
  roles_of_carries (withImages_carries ..)

/-- The student speaks first where no answer is left in front. -/
theorem buildMessages_starts :
    (buildMessages isAlnum toFloat b64encode nonces content history beside).head?.map Message.role = some .user ↔
      StartsWithStudent history := by
  obtain ⟨groups, -, hhead⟩ := shown_merges isAlnum toFloat nonces content history beside
  rw [← shown_head isAlnum toFloat nonces content history beside, ← hhead, ← List.head?_map, ← List.head?_map,
    buildMessages_roles]

/-- The messages are those that the interface of the model accepts exactly where the cut of
the history leaves no answer in front. -/
theorem messages_valid_iff : ValidMessages isAlnum toFloat nonces content history beside
      (buildMessages isAlnum toFloat b64encode nonces content history beside) ↔ StartsWithStudent history := by
  have hstarts := buildMessages_starts isAlnum toFloat b64encode nonces content history beside
  have hroles := buildMessages_roles isAlnum toFloat b64encode nonces content history beside
  obtain ⟨groups, hmerges, -⟩ := shown_merges isAlnum toFloat nonces content history beside
  have hcarries := withImages_carries b64encode beside.images (merge (shown isAlnum toFloat nonces content history beside))
  refine ⟨fun h => hstarts.mp h.starts, fun h => ⟨hstarts.mpr h, ?_, ?_, ?_⟩⟩
  · rw [hroles]
    exact hmerges.alternate
  · obtain ⟨blocks, hblocks⟩ := currentTurn_content isAlnum toFloat nonces content beside
    obtain ⟨earlier, last, before, hmerged, hrole, hcontent⟩ := last_of_pairs hmerges.pairs hmerges.parts
    rw [hmerged] at hcarries
    obtain ⟨messages, message, hmessages, hcarry⟩ := last_of_carries hcarries
    refine ⟨messages, message, before, blocks, ?_, hcarry.role.trans hrole, ?_, hblocks⟩
    · rw [← hmerged] at hmessages
      exact hmessages
    · rw [hcarry.said, hcontent, ← hblocks, List.append_assoc]
  · exact ⟨groups, hmerges.parts, joins_of_carries hmerges.pairs hcarries⟩

end

/-! ## An answer in front -/

namespace MessagesSample

def question : Row := ⟨.student, str "Why?"⟩

def reply : Row := ⟨.assistant, str "Because."⟩

/-- Six questions with their answers, and one that was not answered. -/
def history : List Row := (List.replicate 6 [question, reply]).flatten ++ [question]

def nonces : Nonces := ⟨str "0", str "1", str "2"⟩

/-- Letters and digits of ASCII. -/
def isAlnum (c : ℕ) : Bool := (48 ≤ c && c ≤ 57) || (65 ≤ c && c ≤ 90) || (97 ≤ c && c ≤ 122)

/-- The floating number of the one decimal that is looked at. -/
def toFloat (_ : ℚ) : JsonText.Float := ⟨str "0.5", .inr (by decide)⟩

end MessagesSample

/-- The twelve rows that are shown begin with an answer. -/
theorem messages_invalid :
    ¬ ValidMessages MessagesSample.isAlnum MessagesSample.toFloat MessagesSample.nonces (str "And now?")
      MessagesSample.history {} (buildMessages MessagesSample.isAlnum MessagesSample.toFloat (fun _ => [])
        MessagesSample.nonces (str "And now?") MessagesSample.history {}) := by
  intro h
  have hfirst := (buildMessages_starts ..).mp h.starts MessagesSample.reply rfl
  exact absurd hfirst (by decide)

end Stoa.AskPrompt
