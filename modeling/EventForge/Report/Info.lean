import EventForge.Namespace
import EventForge.Report.Item

/-!
# Facts about a model

The size of every section, the streams and the namespaces of the schemas, without validation.
-/

namespace EventForge.Report

structure InfoReport where
  name : String
  description : Option String
  source : String
  counts : List (String × Nat)
  namespaces : List (String × Nat)
  majority : String
  streams : List String
  deriving DecidableEq, Repr

namespace InfoReport

/-- The sizes of the sections of a model, in the order in which they are shown. -/
def sizes (m : Model) : List (String × Nat) :=
  [("audiences", m.audiences.length), ("streams", m.streams.length),
   ("interfaces", m.interfaces.size),
   ("elements", m.interfaces.values.foldl (fun n i => n + i.elements.size) 0),
   ("events", m.events.size), ("commands", m.commands.size), ("read models", m.readModels.size),
   ("flows", m.flows.size), ("placements", m.placements.size), ("schemas", m.schemas.size)]

/-- The report on a model; `source` tells where it was read from. -/
def ofModel (m : Model) (source : String) : InfoReport where
  name := m.name
  description := m.description
  source := source
  counts := sizes m
  namespaces := NamespaceChoice.ranking m
  majority := NamespaceChoice.majority.resolve m
  streams := m.streams.map Stream.name

def countItems (counts : List (String × Nat)) : List Item :=
  counts.map fun (key, n) => .keyValueIndented key (Text.decimal n)

def items (r : InfoReport) : List Item :=
  let head := [Item.title r.name] ++ (r.description.toList.map Item.preformatted) ++
    [.newline, .keyValue "Source" r.source, .keyValue "Majority namespace" r.majority, .newline,
     .section "Model"]
  let streams :=
    if r.streams = [] then []
    else [Item.newline, .section "Streams"] ++ r.streams.map Item.listItem
  let namespaces :=
    if r.namespaces = [] then []
    else [Item.newline, .section "Schema namespaces"] ++ countItems r.namespaces
  head ++ countItems r.counts ++ streams ++ namespaces

end InfoReport

end EventForge.Report
