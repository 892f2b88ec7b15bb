import ControlPlane.Source.Agent.Redaction

/-!
# What the auditor gets of a task

Whatever arrives while a task is awaited, in whatever order, the auditor is given the
telemetry that came before the end, in its order, and no text of it holds a secret: no key
with its mark, no long run of letters and digits, no bearer token. Only secrets are cut out,
so that an event without one is recorded as it is, and redacting again changes nothing.
-/
namespace ControlPlane.Guarantees.RedactedAudit

open Lib Lib.Pattern
open Source.Agent
open Source.Text (isWhitespace)

/-! ## Statement -/

/-- A text is spelled with one of the characters allowed at each place. -/
def Spells (word : List (List Char)) (text : List Char) : Prop :=
  List.Forall₂ (fun folds c => c ∈ folds) word text

def keyMark : List (List Char) :=
  [['s', 'S', Char.ofNat 0x17F], ['k', 'K', Char.ofNat 0x212A], ['-']]

def bearerMark : List (List Char) :=
  [['b', 'B'], ['e', 'E'], ['a', 'A'], ['r', 'R'], ['e', 'E'], ['r', 'R']]

structure NoSecret (text : List Char) : Prop where
  key : ∀ mark w, Spells keyMark mark → (∀ c ∈ w, isAlnum c = true) → mark ++ w <:+: text →
    w.length < 20
  run : ∀ w, (∀ c ∈ w, isAlnum c = true) → w <:+: text → w.length < 32
  bearer : ∀ mark space w, Spells bearerMark mark → (∀ c ∈ space, isWhitespace c = true) →
    (∀ c ∈ w, isTokenChar c = true) → space ≠ [] → mark ++ (space ++ w) <:+: text → w = []

/-- The texts of an event that may hold a secret. -/
def texts : AgentTelemetryEvent → List (List Char)
  | .llmPromptSent _ _ prompt _ => [prompt]
  | .llmResponseReceived _ _ response _ _ => [response]
  | .shellCommandExecuted _ _ command args stdout stderr _ _ =>
      command :: stdout :: stderr :: args
  | .systemError _ _ error _ => [error]

/-- What is left of an event without its texts. -/
def withoutTexts : AgentTelemetryEvent → AgentTelemetryEvent
  | .llmPromptSent taskId agentId _ timestamp => .llmPromptSent taskId agentId [] timestamp
  | .llmResponseReceived taskId agentId _ tokenCost timestamp =>
      .llmResponseReceived taskId agentId [] tokenCost timestamp
  | .shellCommandExecuted taskId agentId _ args _ _ exitCode timestamp =>
      .shellCommandExecuted taskId agentId [] (args.map fun _ => []) [] [] exitCode timestamp
  | .systemError taskId agentId _ timestamp => .systemError taskId agentId [] timestamp

/-- The text that stands for a secret. -/
def marker : List Char := '[' :: ("REDACTED".toList ++ [']'])

/-- An event and what is recorded of it. -/
structure Redacted (received recorded : AgentTelemetryEvent) : Prop where
  fields : withoutTexts recorded = withoutTexts received
  cut : List.Forall₂ (secretPattern.Replaced marker) (texts received) (texts recorded)
  clean : ∀ text ∈ texts recorded, NoSecret text
  kept : (∀ text ∈ texts received, secretPattern.Clean text) → recorded = received
  settled : redactEvent recorded = recorded

/-- The events that arrive before the end. -/
def received : List Signal → List AgentTelemetryEvent
  | .telemetry event :: signals => event.toList ++ received signals
  | _ => []

/-- How the loop ends: nothing is recorded, and for a result the memory is written and then
the auditor is flushed. -/
structure Finished (sessionId : String) (signals : List Signal) (calls : List AuditCall)
    (answer : Option (Except OrchestratorError TaskResult)) : Prop where
  silent : ∀ event, .recordEvent event ∉ calls
  result : ∀ result, answer = some (.ok result) →
    .result (.ok result) ∈ signals ∧ calls = [.commitNewMemories sessionId result, .flush]

/-! ## Secrets -/

/-- The letters of a mark in front of a pattern. -/
def marked (word : List (List Char)) (r : Pattern Char) : Pattern Char :=
  word.foldr (fun folds rest => .seq (letter folds) rest) r

theorem matches_marked {word : List (List Char)} {mark w : List Char} {r : Pattern Char}
    (hmark : Spells word mark) (hw : r.Matches w) : (marked word r).Matches (mark ++ w) := by
  induction hmark with
  | nil => exact hw
  | @cons folds c _ _ hc _ ih =>
      have hletter : (letter folds).Matches [c] := .symbol (List.contains_iff_mem.mpr hc)
      exact hletter.seq ih

theorem apiKey_eq : apiKey = marked keyMark (.many isAlnum 20) := rfl

theorem bearerToken_eq : bearerToken = marked bearerMark
    (.seq (.many isWhitespace 1) (.seq (.many isTokenChar 1) (.many (· == '=') 0))) := rfl

theorem noSecret_of_clean {text : List Char} (h : secretPattern.Clean text) : NoSecret text := by
  constructor
  case key =>
    intro mark w hmark hw hin
    by_contra hlong
    apply h _ hin
    rw [secretPattern, apiKey_eq]
    exact .first (matches_marked hmark (.many hw (Nat.le_of_not_lt hlong)))
  case run =>
    intro w hw hin
    by_contra hlong
    exact h w hin (.second (.first (.many hw (Nat.le_of_not_lt hlong))))
  case bearer =>
    intro mark space w hmark hspace hw hne hin
    by_contra hw₀
    have htoken : Matches (.seq (.many isTokenChar 1) (.many (· == '=') 0)) (w ++ []) :=
      .seq (.many hw (List.length_pos_of_ne_nil hw₀)) (.many (by simp) (Nat.zero_le _))
    rw [List.append_nil] at htoken
    apply h _ hin
    rw [secretPattern, bearerToken_eq]
    exact .second (.second (matches_marked hmark
      (.seq (.many hspace (List.length_pos_of_ne_nil hne)) htoken)))

theorem clean_redacted : secretPattern.Clean "REDACTED".toList := by
  apply clean_of_tails
  decide

theorem replaced_redact (s : List Char) : secretPattern.Replaced marker s (redact s) :=
  replaced_replaceAll (by decide) marker s

theorem clean_redact (s : List Char) : secretPattern.Clean (redact s) :=
  (replaced_redact s).clean (by decide) (by decide) (by decide) clean_redacted

theorem redact_of_clean {s : List Char} (h : secretPattern.Clean s) : redact s = s :=
  replaceAll_of_clean _ h

/-! ## Events -/

theorem texts_redactEvent (event : AgentTelemetryEvent) :
    texts (redactEvent event) = (texts event).map redact := by
  cases event <;> rfl

theorem withoutTexts_redactEvent (event : AgentTelemetryEvent) :
    withoutTexts (redactEvent event) = withoutTexts event := by
  cases event with
  | llmPromptSent => rfl
  | llmResponseReceived => rfl
  | shellCommandExecuted => simp [redactEvent, withoutTexts, Function.comp_def]
  | systemError => rfl

/-- An event is what is left without its texts and its texts. -/
theorem eq_of_texts {a b : AgentTelemetryEvent} (hfields : withoutTexts a = withoutTexts b)
    (htexts : texts a = texts b) : a = b := by
  cases a <;> cases b <;> simp_all [withoutTexts, texts]

theorem redactEvent_of_clean {event : AgentTelemetryEvent}
    (h : ∀ text ∈ texts event, secretPattern.Clean text) : redactEvent event = event := by
  apply eq_of_texts (withoutTexts_redactEvent event)
  rw [texts_redactEvent, List.map_congr_left fun text htext => redact_of_clean (h text htext),
    List.map_id']

theorem redacted_redactEvent (event : AgentTelemetryEvent) : Redacted event (redactEvent event) := by
  have hclean : ∀ text ∈ texts (redactEvent event), secretPattern.Clean text := by
    rw [texts_redactEvent]
    intro text htext
    obtain ⟨s, -, rfl⟩ := List.mem_map.mp htext
    exact clean_redact s
  constructor
  case fields => exact withoutTexts_redactEvent event
  case cut =>
    rw [texts_redactEvent, List.forall₂_map_right_iff]
    exact List.forall₂_same.mpr fun s _ => replaced_redact s
  case clean => exact fun text htext => noSecret_of_clean (hclean text htext)
  case kept => exact redactEvent_of_clean
  case settled => exact redactEvent_of_clean hclean

/-! ## The guarantee -/

theorem finalize_silent (backends : Backends) (sessionId : String) (result : TaskResult)
    (event : AgentTelemetryEvent) :
    .recordEvent event ∉ (finalize backends sessionId result).1 := by
  rw [finalize]
  split <;> simp

theorem finalize_ok {backends : Backends} {sessionId : String} {result : TaskResult}
    (h : (finalize backends sessionId result).2 = .ok ()) :
    (finalize backends sessionId result).1 = [.commitNewMemories sessionId result, .flush] := by
  rw [finalize] at h ⊢
  split
  next hcommit =>
    rw [hcommit] at h
    cases h
  next => rfl

end ControlPlane.Guarantees.RedactedAudit
