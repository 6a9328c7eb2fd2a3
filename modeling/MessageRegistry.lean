import MessageRegistry.Catalog
import MessageRegistry.Event
import MessageRegistry.Fault
import MessageRegistry.Info
import MessageRegistry.Name
import MessageRegistry.Registration
import MessageRegistry.Registry.Basic
import MessageRegistry.Registry.Concurrent
import MessageRegistry.Registry.Operation
import MessageRegistry.Registry.Register
import MessageRegistry.Resolution
import MessageRegistry.Scalar
import MessageRegistry.Schema.Basic
import MessageRegistry.Schema.WellFormed
import MessageRegistry.SemanticType
import MessageRegistry.Table
import MessageRegistry.Text.Quoted
import MessageRegistry.Text.Uppercase
import MessageRegistry.WellKnown
import MessageRegistry.Proofs.General
import MessageRegistry.Proofs.Info.FieldIndex
import MessageRegistry.Proofs.Registration.Induction
import MessageRegistry.Proofs.Schema.Description
import MessageRegistry.Proofs.Registration.Sound
import MessageRegistry.Proofs.Registration.Fuel
import MessageRegistry.Proofs.Registration.Fresh
import MessageRegistry.Proofs.Registration.Acceptance
import MessageRegistry.Proofs.Registration.History
import MessageRegistry.Proofs.Catalog.Publish
import MessageRegistry.Proofs.Schema.Embedding
import MessageRegistry.Proofs.Catalog.Sound
import MessageRegistry.Proofs.Registry.Register
import MessageRegistry.Proofs.Registry.Publication
import MessageRegistry.Proofs.Registry.Acceptance
import MessageRegistry.Proofs.Registry.History
import MessageRegistry.Proofs.Registry.Description
import MessageRegistry.Proofs.Schema.FieldType
import MessageRegistry.Proofs.Registry.Closure
import MessageRegistry.Proofs.Catalog.Identity
import MessageRegistry.Proofs.Registry.Run
import MessageRegistry.Proofs.Registry.Rejection
import MessageRegistry.Proofs.Registry.Contents
import MessageRegistry.Proofs.Registry.Count
import MessageRegistry.Proofs.Registry.Commutation
import MessageRegistry.Proofs.Registry.Seed
import MessageRegistry.Proofs.Registry.Identity
import MessageRegistry.Proofs.Registry.Repetition
import MessageRegistry.Proofs.Concurrent.Linearization
import MessageRegistry.Proofs.Registry.Log
import MessageRegistry.Proofs.Registry.Accounting
import MessageRegistry.Proofs.Registry.LeadingDot
import MessageRegistry.Proofs.Catalog.EnumValue
import MessageRegistry.Proofs.Registry.EnumValue
import MessageRegistry.Proofs.Registration.Leniency
import MessageRegistry.Proofs.Registry.Leniency
import MessageRegistry.Proofs.Registry.LookUp
import MessageRegistry.Proofs.Registration.FaultPath
import MessageRegistry.Proofs.Registration.Termination
import MessageRegistry.Proofs.Registry.FaultPath
import MessageRegistry.Proofs.Registration.Order
import MessageRegistry.Proofs.Registry.PublicationOrder
import MessageRegistry.Proofs.Name
import MessageRegistry.Proofs.Info.FieldLookUp
import MessageRegistry.Proofs.Registry.FieldLookUp
import MessageRegistry.Proofs.Info.ShortName
import MessageRegistry.Proofs.Registry.EnumValueLookUp
import MessageRegistry.Proofs.Registry.ShortName
import MessageRegistry.Proofs.Registry.Cycle
import MessageRegistry.Proofs.Info.Collision
import MessageRegistry.Proofs.Registry.Report
import MessageRegistry.Proofs.Registry.Question
import MessageRegistry.Proofs.Registry.StrictName
import MessageRegistry.Proofs.SemanticType.Text
import MessageRegistry.Proofs.Fault.Source

