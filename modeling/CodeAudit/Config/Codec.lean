import CodeAudit.Config.Basic
import CodeAudit.Json.Decode
/-!
# Configurations in JSON

How configurations are written and read. Every field has a default and may be left out.
-/
namespace CodeAudit

open Json (Decoder Fields)
open Json.Fields (defaulted)

namespace AnalyzerSettings

def toJson (s : AnalyzerSettings) : Json :=
  .ofFields [("enabled", .bool s.enabled), ("config", s.config)]

/-- The name of the record. -/
def recordName : String := "PluginSettings"

def fields : Fields AnalyzerSettings :=
  let given : AnalyzerSettings := {}
  AnalyzerSettings.mk <$> defaulted "enabled" Decoder.boolean given.enabled
    <*> defaulted "config" Decoder.value given.config

def decode : Decoder AnalyzerSettings :=
  Decoder.record recordName fields

end AnalyzerSettings

namespace RunConfig

def toJson (c : RunConfig) : Json :=
  .ofFields [("plugins", .ofFields (c.analyzers.map fun (name, s) => (name, s.toJson))),
    ("parallel_execution", .bool c.parallel),
    ("max_concurrent_plugins", .count c.maxConcurrent), ("timeout_ms", .count c.timeoutMs),
    ("fail_fast", .bool c.failFast), ("generate_recommendations", .bool c.recommendations)]

/-- The fields of a configuration, given how the settings of an analyzer are read. -/
def fields (settings : Decoder AnalyzerSettings) : Fields RunConfig :=
  let given : RunConfig := {}
  RunConfig.mk <$> defaulted "plugins" (Decoder.mapOf settings) given.analyzers
    <*> defaulted "parallel_execution" Decoder.boolean given.parallel
    <*> defaulted "max_concurrent_plugins" Decoder.size given.maxConcurrent
    <*> defaulted "timeout_ms" Decoder.nat64 given.timeoutMs
    <*> defaulted "fail_fast" Decoder.boolean given.failFast
    <*> defaulted "generate_recommendations" Decoder.boolean given.recommendations

/-- The name of the record. -/
def recordName : String := "OrchestratorConfig"

def decode : Decoder RunConfig :=
  Decoder.record recordName (fields AnalyzerSettings.decode)

/-- Reads the value of a document; lists in it may have more items than their records have fields. -/
def decodeDocument : Decoder RunConfig :=
  Decoder.openRecord recordName
    (fields (Decoder.openRecord AnalyzerSettings.recordName AnalyzerSettings.fields))

end RunConfig

end CodeAudit
