import Stoa.Model.MessageRequest

/-! # Requests that are the same

The bytes behind a fingerprint say all that it is to recognise, so a command is
replayed for the request that it was claimed for and for no other. -/

namespace Stoa.AskQuestion

open Framing

/-- What a replay has to agree on. -/
structure SameRequest (a b : SendMessageRequest) : Prop where
  content : a.content = b.content
  attachmentIds : a.attachmentIds = b.attachmentIds
  practiceContext : a.practiceContext = b.practiceContext
  quote : a.quote = b.quote

/-! ## The parts of a request -/

/-- The id of a stored exercise is its text. -/
theorem ContentId.val_injective : Function.Injective ContentId.val := by
  rintro ⟨a, ha⟩ ⟨b, hb⟩ rfl
  rfl

theorem OpaqueId.val_injective : Function.Injective OpaqueId.val := by
  rintro ⟨a, ha⟩ ⟨b, hb⟩ rfl
  rfl

/-- The type byte and the id are the whole reference. -/
theorem reference_ext {a b : AttachmentReference} (htype : a.uploadId.isSome = b.uploadId.isSome)
    (hid : a.opaqueId = b.opaqueId) : a = b := by
  obtain ⟨upload, attachment, hone⟩ := a
  obtain ⟨upload', attachment', hone'⟩ := b
  match upload, attachment, upload', attachment', hone, hone', htype, hid with
  | some u, none, some u', none, _, _, _, hid =>
      have hsame : u = u' := OpaqueId.val_injective hid
      subst hsame
      rfl
  | none, some v, none, some v', _, _, _, hid =>
      have hsame : v = v' := OpaqueId.val_injective hid
      subst hsame
      rfl

theorem prefixFree_referenceBytes : PrefixFree referenceBytes := by
  intro a b x y s t ha hb h
  simp only [referenceBytes, Option.pure_def, Option.bind_eq_bind, Option.bind_eq_some_iff,
    Option.some.injEq] at ha hb
  obtain ⟨x, hx, rfl⟩ := ha
  obtain ⟨y, hy, rfl⟩ := hb
  obtain ⟨htype, hrest⟩ := List.cons.inj h
  obtain ⟨hid, hst⟩ := prefixFree_frame hx hy hrest
  refine ⟨reference_ext ?_ hid, hst⟩
  cases ha : a.uploadId <;> cases hb : b.uploadId <;> simp_all

/-- Three texts one after the other. -/
theorem prefixFree_texts : PrefixFree (both frame (both frame frame)) :=
  prefixFree_frame.both (prefixFree_frame.both prefixFree_frame)

theorem contextBytes_eq : contextBytes = marked 0x10 fun context =>
    both frame (both frame frame) (context.challengeId.val, context.lessonId.val, context.unitId.val) := by
  funext context
  cases context with
  | none => rfl
  | some context => simp [contextBytes, marked, both, Option.bind_assoc]

theorem prefixFree_context : PrefixFree fun context : PracticeContextReference =>
    both frame (both frame frame) (context.challengeId.val, context.lessonId.val, context.unitId.val) := by
  refine prefixFree_texts.comp (f := fun context : PracticeContextReference =>
    (context.challengeId.val, context.lessonId.val, context.unitId.val)) ?_
  intro c c' h
  obtain ⟨hchallenge, h⟩ := Prod.mk.inj h
  obtain ⟨hlesson, hunit⟩ := Prod.mk.inj h
  cases c
  cases c'
  rw [PracticeContextReference.mk.injEq]
  exact ⟨ContentId.val_injective hchallenge, ContentId.val_injective hlesson, ContentId.val_injective hunit⟩

theorem AnswerSection.text_injective : Function.Injective AnswerSection.text := by
  intro a b h
  cases a <;> cases b <;> first | rfl | exact absurd h (by decide)

theorem QuoteKind.text_injective : Function.Injective QuoteKind.text := by
  intro a b h
  cases a <;> cases b <;> first | rfl | exact absurd h (by decide)

/-- The number that stands for the index of a part. -/
def MessageQuotePart.number (part : MessageQuotePart) : ℤ := part.index.elim (-1) fun i => (i : ℤ)

theorem part_ext {a b : MessageQuotePart} (hsection : a.section_ = b.section_)
    (hnumber : a.number = b.number) : a = b := by
  obtain ⟨section_, index, _, _⟩ := a
  obtain ⟨section_', index', _, _⟩ := b
  have hindex : index = index' := by
    cases index <;> cases index' <;> simp only [MessageQuotePart.number, Option.elim_none,
      Option.elim_some] at hnumber
    · rfl
    · omega
    · omega
    · rw [Int.ofNat_inj.mp hnumber]
  subst hindex
  obtain rfl : section_ = section_' := hsection
  rfl

theorem partBytes_eq : partBytes = marked 0x12 fun part =>
    both frame packSigned (part.section_.text, part.number) := by
  funext part
  cases part with
  | none => rfl
  | some part => simp [partBytes, marked, both, MessageQuotePart.number, Option.bind_assoc]

theorem prefixFree_part : PrefixFree fun part : MessageQuotePart =>
    both frame packSigned (part.section_.text, part.number) := by
  refine (prefixFree_frame.both prefixFree_packSigned).comp
    (f := fun part : MessageQuotePart => (part.section_.text, part.number)) ?_
  intro a b h
  obtain ⟨hsection, hnumber⟩ := Prod.mk.inj h
  exact part_ext (AnswerSection.text_injective hsection) hnumber

theorem quote_ext {a b : MessageQuote} (htext : a.text = b.text) (hkind : a.source.kind = b.source.kind)
    (hid : a.source.id = b.source.id) (hpart : a.source.part = b.source.part) : a = b := by
  obtain ⟨text, _, ⟨kind, id, part, _⟩⟩ := a
  obtain ⟨text', _, ⟨kind', id', part', _⟩⟩ := b
  obtain rfl : text = text' := htext
  obtain rfl : kind = kind' := hkind
  obtain rfl : id = id' := hid
  obtain rfl : part = part' := hpart
  rfl

/-- The quote is the end of the bytes, so its part may be the last of them. -/
theorem quoteBytes_injective {a b : Option MessageQuote} {x : Bytes} (ha : quoteBytes a = some x)
    (hb : quoteBytes b = some x) : a = b := by
  cases a with
  | none =>
      cases b with
      | none => rfl
      | some b =>
          cases ha
          simp [quoteBytes, Option.bind_eq_some_iff] at hb
  | some a =>
      cases b with
      | none =>
          cases hb
          simp [quoteBytes, Option.bind_eq_some_iff] at ha
      | some b =>
          simp only [quoteBytes, Option.pure_def, Option.bind_eq_bind, Option.bind_eq_some_iff,
            Option.some.injEq] at ha hb
          obtain ⟨text, htext, kind, hkind, id, hid, part, hpart, rfl⟩ := ha
          obtain ⟨text', htext', kind', hkind', id', hid', part', hpart', hxy⟩ := hb
          obtain ⟨heq, h⟩ := prefixFree_frame htext htext' (List.cons.inj hxy).2.symm
          obtain ⟨hkindEq, h⟩ := prefixFree_frame hkind hkind' h
          obtain ⟨hidEq, h⟩ := prefixFree_frame hid hid' h
          rw [partBytes_eq] at hpart hpart'
          have hparts := prefixFree_part.marked hpart hpart' (s := []) (t := []) (by simp) (by simp)
            (by simpa using h)
          rw [quote_ext heq (QuoteKind.text_injective hkindEq) (ContentId.val_injective hidEq) hparts.1]

theorem quoteBytes_head {quote : Option MessageQuote} {x : Bytes} (h : quoteBytes quote = some x) :
    x.head? ≠ some 0x10 := by
  cases quote with
  | none =>
      cases h
      simp
  | some quote =>
      simp only [quoteBytes, Option.pure_def, Option.bind_eq_bind, Option.bind_eq_some_iff,
        Option.some.injEq] at h
      obtain ⟨text, -, kind, -, id, -, part, -, rfl⟩ := h
      simp

/-! ## The whole request -/

/-- Requests are the same exactly when their bytes are. -/
theorem message_request_bytes_eq_iff {a b : SendMessageRequest} {x y : Bytes}
    (ha : messageRequestBytes a = some x) (hb : messageRequestBytes b = some y) :
    x = y ↔ SameRequest a b := by
  constructor
  · rintro rfl
    simp only [messageRequestBytes, Option.pure_def, Option.bind_eq_bind, Option.bind_eq_some_iff,
      Option.some.injEq] at ha hb
    obtain ⟨content, hcontent, references, hreferences, context, hcontext, quote, hquote, rfl⟩ := ha
    obtain ⟨content', hcontent', references', hreferences', context', hcontext', quote', hquote', h⟩ := hb
    have h := (List.append_cancel_left h).symm
    obtain ⟨hcontentEq, h⟩ := prefixFree_frame hcontent hcontent' h
    obtain ⟨hreferencesEq, h⟩ := prefixFree_referenceBytes.counted hreferences hreferences' h
    rw [contextBytes_eq] at hcontext hcontext'
    obtain ⟨hcontextEq, rfl⟩ := prefixFree_context.marked hcontext hcontext'
      (quoteBytes_head hquote) (quoteBytes_head hquote') h
    refine ⟨hcontentEq, ?_, hcontextEq, quoteBytes_injective hquote hquote'⟩
    have hvalid := a.uniqueAttachments
    have hvalid' := b.uniqueAttachments
    cases ha : a.attachmentIds <;> cases hb : b.attachmentIds <;> simp_all
  · intro h
    have hsame : messageRequestBytes a = messageRequestBytes b := by
      simp only [messageRequestBytes, h.content, h.attachmentIds, h.practiceContext, h.quote]
    exact Option.some.inj (ha.symm.trans (hsame.trans hb))

/-- A stored command is replayed for a request, as far as its fingerprint says. -/
def Replayed (command : CommandRow) (ownerId fingerprint : String) (nowEpoch : ℕ) : Prop :=
  (classifyMessageCommand (some command) ownerId fingerprint nowEpoch).disposition ≠ .idempotencyConflict

theorem disposition_ne_conflict (command : CommandRow) (nowEpoch : ℕ) :
    command.disposition nowEpoch ≠ .idempotencyConflict := by
  unfold CommandRow.disposition
  repeat' split
  all_goals simp

theorem replayed_iff {command : CommandRow} {fingerprint : String} {nowEpoch : ℕ} :
    Replayed command command.ownerId fingerprint nowEpoch ↔ command.fingerprint = fingerprint := by
  rw [Replayed, classifyMessageCommand, if_neg (not_not.mpr rfl)]
  by_cases h : command.fingerprint = fingerprint
  · rw [if_neg (not_not.mpr h)]
    refine iff_of_true ?_ h
    split
    · simp
    · exact disposition_ne_conflict command nowEpoch
  · rw [if_pos h]
    exact iff_of_false (fun hne => hne rfl) h

/-- The bytes that are hashed are those of the request, and a command is replayed for
the request that it was claimed for and for no other. -/
theorem fingerprint_recognises (sha256 : Bytes → String) (hsha256 : Function.Injective sha256)
    {a b : SendMessageRequest} {x y : Bytes} (ha : messageRequestBytes a = some x)
    (hb : messageRequestBytes b = some y) :
    (x = y ↔ SameRequest a b) ∧
      ∀ (command : CommandRow) (fingerprint : String) (nowEpoch : ℕ),
        messageRequestFingerprint sha256 a = some command.fingerprint →
          messageRequestFingerprint sha256 b = some fingerprint →
            (Replayed command command.ownerId fingerprint nowEpoch ↔ SameRequest a b) := by
  refine ⟨message_request_bytes_eq_iff ha hb, fun command fingerprint nowEpoch hcommand hfingerprint => ?_⟩
  rw [messageRequestFingerprint, ha, Option.map_some, Option.some_inj] at hcommand
  rw [messageRequestFingerprint, hb, Option.map_some, Option.some_inj] at hfingerprint
  rw [replayed_iff, ← hcommand, ← hfingerprint, hsha256.eq_iff]
  exact message_request_bytes_eq_iff ha hb

/-! ## Two requests -/

namespace FingerprintSample

def request (content : String) : SendMessageRequest where
  content := content
  idempotencyKey := "key"
  keyBounds := by decide
  keyPattern := by decide
  attachmentIds := none
  practiceContext := none
  quote := none
  uniqueAttachments := by simp

def bytes (content : String) : Bytes := (messageRequestBytes (request content)).getD []

def firstDigest : String := "67a89ee6893f091850847fdb4b5b7b2824945dfee87bcdd671d99daa07ff5ded"

def secondDigest : String := "b38d68d455ce8fec2bad440bee3fd64b2f7c0fc7150c253f1a2bb8258623daa6"

/-- A text of their own for all other bytes. -/
def ownText (x : Bytes) : String := String.ofList (x.map fun byte => Char.ofNat (byte.toNat + 256))

/-- The digests of two requests. -/
def sha256 (x : Bytes) : String :=
  if x = bytes "2+2?" then firstDigest
  else if x = bytes "2+3?" then secondDigest
  else ownText x

theorem toNat_byteChar (byte : UInt8) : (Char.ofNat (byte.toNat + 256)).toNat = byte.toNat + 256 := by
  have hchar : ∀ n : Fin 256, (Char.ofNat (n.val + 256)).toNat = n.val + 256 := by decide +kernel
  exact hchar ⟨byte.toNat, byte.toNat_lt⟩

theorem ownText_injective : Function.Injective ownText := by
  intro x y h
  refine List.map_injective_iff.mpr (fun a b hab => ?_) (String.ofList_injective h)
  have hnat := congrArg Char.toNat hab
  simp only [toNat_byteChar] at hnat
  exact UInt8.toNat_inj.mp (by omega)

/-- No text of its own starts like a digest. -/
theorem ownText_ne {digest : String} {c : Char} (hfirst : digest.toList.head? = some c)
    (hlt : c.toNat < 256) (x : Bytes) : ownText x ≠ digest := by
  rintro rfl
  rw [ownText, String.toList_ofList, List.head?_map, Option.map_eq_some_iff] at hfirst
  obtain ⟨byte, -, rfl⟩ := hfirst
  rw [toNat_byteChar] at hlt
  omega

theorem sha256_injective : Function.Injective sha256 := by
  have hdistinct : firstDigest ≠ secondDigest := by decide
  have hfirst : ∀ x, ownText x ≠ firstDigest := ownText_ne (c := '6') (by decide) (by decide)
  have hsecond : ∀ x, ownText x ≠ secondDigest := ownText_ne (c := 'b') (by decide) (by decide)
  intro x y h
  simp only [sha256] at h
  by_cases hx : x = bytes "2+2?" <;> by_cases hy : y = bytes "2+2?"
  · exact hx.trans hy.symm
  · rw [if_pos hx, if_neg hy] at h
    by_cases hy' : y = bytes "2+3?"
    · rw [if_pos hy'] at h
      exact absurd h hdistinct
    · rw [if_neg hy'] at h
      exact absurd h.symm (hfirst y)
  · rw [if_neg hx, if_pos hy] at h
    by_cases hx' : x = bytes "2+3?"
    · rw [if_pos hx'] at h
      exact absurd h.symm hdistinct
    · rw [if_neg hx'] at h
      exact absurd h (hfirst x)
  · rw [if_neg hx, if_neg hy] at h
    by_cases hx' : x = bytes "2+3?" <;> by_cases hy' : y = bytes "2+3?"
    · exact hx'.trans hy'.symm
    · rw [if_pos hx', if_neg hy'] at h
      exact absurd h.symm (hsecond y)
    · rw [if_neg hx', if_pos hy'] at h
      exact absurd h (hsecond x)
    · rw [if_neg hx', if_neg hy'] at h
      exact ownText_injective h

end FingerprintSample

/-- Another question under the same key is another request. -/
theorem fingerprint_recognises_sample :
    FingerprintSample.bytes "2+2?" ≠ FingerprintSample.bytes "2+3?" := by
  have hfirst : messageRequestBytes (FingerprintSample.request "2+2?") =
      some (FingerprintSample.bytes "2+2?") := by decide +kernel
  have hsecond : messageRequestBytes (FingerprintSample.request "2+3?") =
      some (FingerprintSample.bytes "2+3?") := by decide +kernel
  intro hbytes
  have hsame := (fingerprint_recognises FingerprintSample.sha256 FingerprintSample.sha256_injective
    hfirst hsecond).1.mp hbytes
  exact absurd hsame.content (by decide)

end Stoa.AskQuestion
