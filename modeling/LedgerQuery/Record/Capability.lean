import LedgerQuery.Record.Network

namespace LedgerQuery

structure Version where
  protocol : String
  node : String
  middleware : Option String
  metadata : Option Metadata

structure OperationStatus where
  status : String
  successful : Bool

/-- An error as a node states it, in its catalog or in place of an answer. -/
structure NodeError where
  code : Int
  message : String
  retriable : Option Bool
  details : Option Metadata

structure Options where
  operationStatuses : List OperationStatus
  operationTypes : List String
  errors : List NodeError

def Version.shape : Shape Version :=
  .record "Version" <| Version.mk
    <$> .withDefault "rosetta_version" .text "" (·.protocol)
    <*> .withDefault "node_version" .text "" (·.node)
    <*> .optional "middleware_version" .text (·.middleware)
    <*> .optional "metadata" .metadata (·.metadata)

def OperationStatus.shape : Shape OperationStatus :=
  .record "OperationStatus" <| OperationStatus.mk
    <$> .withDefault "status" .text "" (·.status)
    <*> .withDefault "successful" .bool false (·.successful)

def NodeError.shape : Shape NodeError :=
  .record "Error" <| NodeError.mk
    <$> .withDefault "code" .int 0 (·.code)
    <*> .withDefault "message" .text "" (·.message)
    <*> .optional "retriable" .bool (·.retriable)
    <*> .optional "details" .metadata (·.details)

def Options.shape : Shape Options :=
  .record "Options" <| Options.mk
    <$> .withDefault "operation_statuses" OperationStatus.shape.list [] (·.operationStatuses)
    <*> .withDefault "operation_types" Shape.text.list [] (·.operationTypes)
    <*> .withDefault "errors" NodeError.shape.list [] (·.errors)

end LedgerQuery
