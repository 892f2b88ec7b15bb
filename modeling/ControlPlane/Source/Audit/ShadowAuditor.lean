import Mathlib.Algebra.Order.Field.Rat
import Mathlib.Data.Finset.Card

/-!
# Shadow auditor

Embeds `crates/h2ai-api/src/shadow_auditor.rs`: the ring buffer of each domain and
`ShadowAuditorAccumulator::process` with the promoted set, the events it publishes, the
set it persists and the metrics it updates. Publishing and persisting are best-effort
there; here they are what was attempted.
-/
namespace ControlPlane.Source.Audit

/-! ## Windows -/

structure DomainWindow where
  window : Nat
  /-- Oldest first; `true` is a disagreement. -/
  buf : List Bool
  deriving DecidableEq, Repr

namespace DomainWindow

def new (window : Nat) : DomainWindow := ⟨window, []⟩

def push (w : DomainWindow) (disagreement : Bool) : DomainWindow :=
  { w with buf := (if w.buf.length = w.window then w.buf.tail else w.buf) ++ [disagreement] }

def nObservations (w : DomainWindow) : Nat := w.buf.length

end DomainWindow

/-- The share of disagreements; 0 without observations. -/
def disagreementRate (observations : List Bool) : ℚ :=
  if observations.isEmpty then 0 else observations.countP (· == true) / observations.length

/-! ## The accumulator -/

/-- `ShadowAuditorConfig`, as far as the accumulator reads it. -/
structure ShadowAuditorConfig where
  promotionThreshold : ℚ
  promotionWindow : Nat
  autoDemotion : Bool
  deriving DecidableEq, Repr

namespace ShadowAuditorConfig

def demotionThreshold (cfg : ShadowAuditorConfig) : ℚ := cfg.promotionThreshold / 2

def demotionWindow (cfg : ShadowAuditorConfig) : Nat := cfg.promotionWindow * 2

end ShadowAuditorConfig

structure ShadowAuditorResultEvent where
  domain : String
  disagreement : Bool
  deriving DecidableEq, Repr

inductive AuditDomainEvent where
  | promoted (domain : String) (disagreementRate : ℚ) (nObservations : Nat)
  | demoted (domain : String) (disagreementRate : ℚ) (nObservations : Nat)
  deriving DecidableEq, Repr

structure ShadowMetrics where
  shadowAuditTotal : Nat
  shadowAuditDisagreements : Nat
  shadowAuditPromotedDomains : Nat
  shadowAuditDisagreementRate : ℚ
  deriving DecidableEq

structure ShadowState where
  windows : String → Option DomainWindow
  promotedAuditDomains : Finset String
  published : List AuditDomainEvent

/-- `entry(domain).or_insert_with(..)`. -/
def ShadowState.windowOr (s : ShadowState) (domain : String) (fresh : DomainWindow) :
    DomainWindow :=
  (s.windows domain).getD fresh

/-- One event of the loop of `process`. -/
def processEvent (cfg : ShadowAuditorConfig) (s : ShadowState) (ev : ShadowAuditorResultEvent) :
    ShadowState :=
  let window := (s.windowOr ev.domain (DomainWindow.new cfg.promotionWindow)).push ev.disagreement
  let s := { s with windows := Function.update s.windows ev.domain (some window) }
  let n := window.nObservations
  let rate := disagreementRate window.buf
  let currentlyPromoted := decide (ev.domain ∈ s.promotedAuditDomains)
  if !currentlyPromoted && decide (cfg.promotionWindow ≤ n) &&
      decide (cfg.promotionThreshold < rate) then
    { s with
      promotedAuditDomains := insert ev.domain s.promotedAuditDomains
      published := s.published ++ [.promoted ev.domain rate n] }
  else if currentlyPromoted && cfg.autoDemotion then
    let demoteWindow := s.windowOr ev.domain (DomainWindow.new cfg.demotionWindow)
    let dn := demoteWindow.nObservations
    let dr := disagreementRate demoteWindow.buf
    if decide (cfg.demotionWindow ≤ dn) && decide (dr < cfg.demotionThreshold) then
      { s with
        promotedAuditDomains := s.promotedAuditDomains.erase ev.domain
        published := s.published ++ [.demoted ev.domain dr dn] }
    else s
  else s

def processEvents (cfg : ShadowAuditorConfig) (s : ShadowState)
    (events : List ShadowAuditorResultEvent) : ShadowState :=
  events.foldl (processEvent cfg) s

/-- The accumulator with what it shares with the server. -/
structure ShadowAuditorAccumulator where
  loop : ShadowState
  persisted : Option (Finset String)
  metrics : ShadowMetrics

/-- At startup there are no windows; the promoted set is the persisted one. -/
def ShadowAuditorAccumulator.new (persisted : Finset String) : ShadowAuditorAccumulator :=
  ⟨⟨fun _ => none, persisted, []⟩, none, ⟨0, 0, 0, 0⟩⟩

/-- The metrics after a batch. -/
def ShadowMetrics.count (m : ShadowMetrics) (events : List ShadowAuditorResultEvent)
    (promotedCount : Nat) : ShadowMetrics :=
  let total := m.shadowAuditTotal + events.length
  let disagreements := m.shadowAuditDisagreements + events.countP (·.disagreement)
  { shadowAuditTotal := total
    shadowAuditDisagreements := disagreements
    shadowAuditPromotedDomains := promotedCount
    shadowAuditDisagreementRate :=
      if 0 < total then (disagreements : ℚ) / total else m.shadowAuditDisagreementRate }

/-- `ShadowAuditorAccumulator::process`. -/
def process (cfg : ShadowAuditorConfig) (acc : ShadowAuditorAccumulator)
    (events : List ShadowAuditorResultEvent) : ShadowAuditorAccumulator :=
  if events.isEmpty then acc
  else
    let s := processEvents cfg acc.loop events
    -- `changed` is set exactly where an event is published
    let changed := decide (acc.loop.published.length < s.published.length)
    { loop := s
      persisted := if changed then some s.promotedAuditDomains else acc.persisted
      metrics := acc.metrics.count events s.promotedAuditDomains.card }

end ControlPlane.Source.Audit
