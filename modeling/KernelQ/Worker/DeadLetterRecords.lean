import KernelQ.Foundation.StructDecoding
import KernelQ.Worker.DeadLetters

/-!
# What a dead letter keeps

A record on the dead-letter topic carries the key and the value of its message as JSON
strings. They come out of it as `runes` of the bytes, so the record gives the message back
exactly if both are UTF-8 (`original_preserved_iff`), while a poisoned message often is
not.
-/

namespace KernelQ.Worker

open KernelQ.Foundation

namespace DeadLetterEvent

/-- The JSON tags; a string is decoded to its bytes. -/
def fields : List (StructField DeadLetterEvent) :=
  [.string "reason" reason fun e s => { e with reason := s },
    .string "original_key" (fun e => String.ofList (runes e.originalKey)) fun e s =>
      { e with originalKey := s.toUTF8 },
    .string "original_value" (fun e => String.ofList (runes e.originalValue)) fun e s =>
      { e with originalValue := s.toUTF8 },
    .string "source_topic" sourceTopic fun e s => { e with sourceTopic := s },
    .string "worker" worker fun e s => { e with worker := s }]

def zero : DeadLetterEvent := ⟨"", ByteArray.empty, ByteArray.empty, "", ""⟩

/-- `json.Unmarshal` of a record. -/
def ofJSON (data : ByteArray) : Except UnmarshalError DeadLetterEvent :=
  unmarshal fields "worker.DeadLetterEvent" zero data

/-- What is left of an event in its record. -/
def recorded (e : DeadLetterEvent) : DeadLetterEvent :=
  { e with
    originalKey := (String.ofList (runes e.originalKey)).toUTF8
    originalValue := (String.ofList (runes e.originalValue)).toUTF8 }

theorem ofJSON_stringStruct (e : DeadLetterEvent) :
    ofJSON (String.ofList (Style.go.stringStruct e.members)).toUTF8 = .ok e.recorded := by
  have h₁ : findField fields "reason" =
    some (.string "reason" reason fun e s => { e with reason := s }) := rfl
  have h₂ : findField fields "original_key" =
    some (.string "original_key" (fun e => String.ofList (runes e.originalKey)) fun e s =>
      { e with originalKey := s.toUTF8 }) := rfl
  have h₃ : findField fields "original_value" =
    some (.string "original_value" (fun e => String.ofList (runes e.originalValue)) fun e s =>
      { e with originalValue := s.toUTF8 }) := rfl
  have h₄ : findField fields "source_topic" =
    some (.string "source_topic" sourceTopic fun e s => { e with sourceTopic := s }) := rfl
  have h₅ : findField fields "worker" =
    some (.string "worker" worker fun e s => { e with worker := s }) := rfl
  rw [ofJSON, unmarshal, runes_toUTF8, String.toList_ofList, parse_stringStruct]
  simp only [members, List.map_cons, List.map_nil, readMember, runes_toUTF8, String.ofList_toList]
  rw [storeMembers_cons h₁ (StructField.store_string _ _ _ _ _),
    storeMembers_cons h₂ (StructField.store_string _ _ _ _ _),
    storeMembers_cons h₃ (StructField.store_string _ _ _ _ _),
    storeMembers_cons h₄ (StructField.store_string _ _ _ _ _),
    storeMembers_cons h₅ (StructField.store_string _ _ _ _ _)]
  rfl

/-- The key and the value are those of the other event. -/
def SameOriginal (d e : DeadLetterEvent) : Prop :=
  d.originalKey = e.originalKey ∧ d.originalValue = e.originalValue

/-- The key and the value are text. -/
def TextOriginal (e : DeadLetterEvent) : Prop :=
  e.originalKey.IsValidUTF8 ∧ e.originalValue.IsValidUTF8

theorem recorded_sameOriginal_iff (e : DeadLetterEvent) :
    e.recorded.SameOriginal e ↔ e.TextOriginal := by
  simp only [SameOriginal, TextOriginal, recorded, toUTF8_runes_iff]

end DeadLetterEvent

namespace KafkaDeadLetterProducer

open DeadLetterEvent

variable (p : KafkaDeadLetterProducer) {σ : Type} (client : σ → (o : ProducerOp) → σ × o.Ans)

/-- The event is published, in one record, which is decoded to `d`. -/
def Publishes (s : σ) (e d : DeadLetterEvent) : Prop :=
  ((p.publishDeadLetter e).run client s).2 = none ∧
    ∃ msg, written ((p.publishDeadLetter e).record client s) = [msg] ∧ ofJSON msg.value = .ok d

variable {p client}

/-- **What a published event is decoded to.** -/
theorem publishes_iff {s : σ} {e d : DeadLetterEvent} :
    p.Publishes client s e d ↔
      ((p.publishDeadLetter e).run client s).2 = none ∧ d = e.recorded := by
  constructor
  · rintro ⟨hnone, msg, hwritten, hd⟩
    rw [(p.written_of_published hnone).2] at hwritten
    cases hwritten
    rw [message, ofJSON_stringStruct] at hd
    exact ⟨hnone, (Except.ok.inj hd).symm⟩
  · rintro ⟨hnone, rfl⟩
    exact ⟨hnone, _, (p.written_of_published hnone).2, ofJSON_stringStruct e⟩

/-- **A record gives its message back** exactly if key and value are UTF-8, and no two such
messages are taken for each other. -/
theorem original_preserved_iff :
    (∀ (s : σ) (e : DeadLetterEvent), ((p.publishDeadLetter e).run client s).2 = none →
      ∃ d, p.Publishes client s e d ∧ (d.SameOriginal e ↔ e.TextOriginal)) ∧
    ∀ (s₁ s₂ : σ) (e₁ e₂ d₁ d₂ : DeadLetterEvent), p.Publishes client s₁ e₁ d₁ →
      p.Publishes client s₂ e₂ d₂ → e₁.TextOriginal → e₂.TextOriginal →
      d₁.SameOriginal d₂ → e₁.SameOriginal e₂ := by
  refine ⟨?_, ?_⟩
  · intro s e hnone
    exact ⟨e.recorded, publishes_iff.mpr ⟨hnone, rfl⟩, recorded_sameOriginal_iff e⟩
  · intro s₁ s₂ e₁ e₂ d₁ d₂ h₁ h₂ htext₁ htext₂ hsame
    obtain ⟨-, rfl⟩ := publishes_iff.mp h₁
    obtain ⟨-, rfl⟩ := publishes_iff.mp h₂
    obtain ⟨hkey₁, hvalue₁⟩ := (recorded_sameOriginal_iff e₁).mpr htext₁
    obtain ⟨hkey₂, hvalue₂⟩ := (recorded_sameOriginal_iff e₂).mpr htext₂
    obtain ⟨hkey, hvalue⟩ := hsame
    exact ⟨hkey₁.symm.trans (hkey.trans hkey₂), hvalue₁.symm.trans (hvalue.trans hvalue₂)⟩

/-- The dead letter of a message with this value, which is no JSON. -/
def poisoned (value : ByteArray) : DeadLetterEvent where
  reason := "malformed"
  originalKey := "job".toUTF8
  originalValue := value
  sourceTopic := "unknown"
  worker := workerIdentity

def brace : ByteArray := "\x7b".toUTF8

theorem poisoned_published {value : ByteArray}
    (hvalue : trimSpace (String.ofList (runes value)) ≠ "") :
    ((publishDeadLetter {} (poisoned value)).run memoryClient []).2 = none := by
  have hvalid : (poisoned value).validate = .ok () :=
    DeadLetterEvent.validate_eq_ok_iff.mpr
      ⟨show trimSpace "malformed" ≠ "" by decide +kernel, hvalue,
        show trimSpace "unknown" ≠ "" by decide +kernel,
        show trimSpace workerIdentity ≠ "" by decide +kernel⟩
  rw [publish_of_valid _ hvalid]
  exact sent_of_reliable memoryClient_reliable _ _

theorem original_preserved_iff_brace :
    (∃ d, Publishes {} memoryClient [] (poisoned brace) d ∧
      (d.SameOriginal (poisoned brace) ↔ (poisoned brace).TextOriginal)) ∧
      (poisoned brace).SameOriginal (poisoned brace) := by
  have hnone : ((publishDeadLetter {} (poisoned brace)).run memoryClient []).2 = none :=
    poisoned_published (by decide +kernel)
  have htext : (poisoned brace).TextOriginal := ⟨"job".isValidUTF8, "\x7b".isValidUTF8⟩
  have hpublishes : Publishes {} memoryClient [] (poisoned brace) (poisoned brace).recorded :=
    publishes_iff.mpr ⟨hnone, rfl⟩
  exact ⟨original_preserved_iff.1 [] (poisoned brace) hnone,
    original_preserved_iff.2 [] [] _ _ _ _ hpublishes hpublishes htext htext ⟨rfl, rfl⟩⟩

/-- Two bytes that are no text leave the same record. -/
theorem poisoned_bytes_lost :
    ∃ d, Publishes {} memoryClient [] (poisoned ⟨#[0x80]⟩) d ∧
      Publishes {} memoryClient [] (poisoned ⟨#[0x81]⟩) d ∧
      ¬ d.SameOriginal (poisoned ⟨#[0x80]⟩) ∧
      ¬ (poisoned ⟨#[0x80]⟩).SameOriginal (poisoned ⟨#[0x81]⟩) := by
  refine ⟨(poisoned ⟨#[0x80]⟩).recorded, publishes_iff.mpr ⟨?_, rfl⟩,
    publishes_iff.mpr ⟨?_, ?_⟩, ?_, ?_⟩
  · exact poisoned_published (by decide +kernel)
  · exact poisoned_published (by decide +kernel)
  · rfl
  · rw [recorded_sameOriginal_iff]
    rintro ⟨-, hvalue⟩
    exact absurd hvalue (by decide +kernel)
  · rintro ⟨-, hvalue⟩
    exact absurd hvalue (by decide +kernel)

end KafkaDeadLetterProducer

end KernelQ.Worker
