import EventStaging.Json.Decode
import EventStaging.Service
import EventStaging.Settings

/-!
# Requests, reports and settings in JSON

The decoders of the values that a service exchanges with its clients.
-/

namespace EventStaging

open Decoder

/-- Settings, each of which may be left out. -/
def Settings.ofJson? : Decoder Settings := fun json ↦ do
  let defaults : Settings := {}
  match ← fields false ["name", "max_queue_size", "enable_logging", "health_threshold"] json with
  | [name, size, logging, threshold] =>
    return {
      name := ← optional defaults.name text name
      maxQueueSize := ← optional defaults.maxQueueSize word size
      enableLogging := ← optional defaults.enableLogging flag logging
      healthThreshold := ← optional defaults.healthThreshold float threshold }
  | _ => none

/-- A request, whose payload may be left out. -/
def Request.ofJson? : Decoder Request := fun json ↦ do
  match ← fields false ["kind", "source", "payload"] json with
  | [kind, source, payload] =>
    return {
      kind := ← required int32 kind
      source := ← required Decoder.text source
      payload := ← optional [] (list byte) payload }
  | _ => none

/-- The outcome of a batch. -/
def BatchOutcome.ofJson? : Decoder BatchOutcome := fun json ↦ do
  match ← fields false ["queued", "failed"] json with
  | [queued, failed] =>
    return {
      queued := ← required word queued
      failed := ← required word failed }
  | _ => none

/-- A duration, of which nothing but its two fields may be said. -/
def Duration.ofJson? : Decoder Duration := fun json ↦ do
  match ← fields true ["secs", "nanos"] json with
  | [secs, nanos] => Duration.of? (← required word secs) (← required word32 nanos)
  | _ => none

/-- A report on a dispatch. -/
def DispatchReport.ofJson? : Decoder DispatchReport := fun json ↦ do
  match ← fields false ["processed", "elapsed"] json with
  | [processed, elapsed] =>
    return {
      processed := ← required word processed
      elapsed := ← required Duration.ofJson? elapsed }
  | _ => none

/-- The health status with a given name. -/
def HealthStatus.ofName? (name : String) : Option HealthStatus :=
  [HealthStatus.healthy, .unhealthy].find? fun status ↦ status.name == name

/-- A health status: its name, or an object whose one member has that name and no value. -/
def HealthStatus.ofJson? : Decoder HealthStatus
  | .string name => name.bind ofName?
  | .object [(name, .null)] => name.bind ofName?
  | _ => none

/-- A report on health. -/
def HealthReport.ofJson? : Decoder HealthReport := fun json ↦ do
  match ← fields false ["status", "checks"] json with
  | [status, checks] =>
    return {
      status := ← required HealthStatus.ofJson? status
      checks := ← required (map flag) checks }
  | _ => none

/-- A labelled count. -/
def LabeledCount.ofJson? : Decoder LabeledCount := fun json ↦ do
  match ← fields false ["kind", "source", "count"] json with
  | [kind, source, count] =>
    return {
      kind := ← required text kind
      source := ← required Decoder.text source
      count := ← required word count }
  | _ => none

/-- A histogram. -/
def HistogramSnapshot.ofJson? : Decoder HistogramSnapshot := fun json ↦ do
  match ← fields false ["buckets", "count", "sum_seconds"] json with
  | [buckets, count, sum] =>
    return {
      buckets := ← required (list (pair float word)) buckets
      count := ← required word count
      sumSeconds := ← required float sum }
  | _ => none

/-- The metrics of a service. -/
def MetricsSnapshot.ofJson? : Decoder MetricsSnapshot := fun json ↦ do
  match ← fields false ["received", "processed", "queue_size", "dispatch_duration"] json with
  | [received, processed, size, durations] =>
    return {
      received := ← required (list LabeledCount.ofJson?) received
      processed := ← required (list LabeledCount.ofJson?) processed
      queueSize := ← required word size
      dispatchDuration := ← required HistogramSnapshot.ofJson? durations }
  | _ => none

/-- The value that a JSON text stands for, by a decoder. -/
def Decoder.ofText? {α : Type} (decode : Decoder α) (source : String) : Option α :=
  (Json.ofText? source).bind decode

end EventStaging
