import Scaffold.Artifact
import Scaffold.Command.Arguments
import Scaffold.Command.Execute
import Scaffold.Command.FileTree
import Scaffold.Context
import Scaffold.Corpus
import Scaffold.Declaration.Basic
import Scaffold.Declaration.Json
import Scaffold.Emission
import Scaffold.FailingMock
import Scaffold.Feature
import Scaffold.Fixture
import Scaffold.Json.Basic
import Scaffold.Json.Decode
import Scaffold.Json.Number
import Scaffold.Json.Reader
import Scaffold.LogLevel
import Scaffold.Main
import Scaffold.Mapping
import Scaffold.Name.Map
import Scaffold.Name.Set
import Scaffold.Naming
import Scaffold.Problem.Basic
import Scaffold.Problem.Json
import Scaffold.Problem.Reason
import Scaffold.Proofs.Agreement
import Scaffold.Proofs.Ancestry
import Scaffold.Proofs.BodyInvariants
import Scaffold.Proofs.CheckedAccess
import Scaffold.Proofs.CheckedBodies
import Scaffold.Proofs.CheckedLexer
import Scaffold.Proofs.CheckedMembers
import Scaffold.Proofs.CheckedReaders
import Scaffold.Proofs.CheckedStretches
import Scaffold.Proofs.CheckedTypes
import Scaffold.Proofs.CheckedUnits
import Scaffold.Proofs.ClassNames
import Scaffold.Proofs.CorpusIndex
import Scaffold.Proofs.CountedOrder
import Scaffold.Proofs.DeclarationOrder
import Scaffold.Proofs.Declarations
import Scaffold.Proofs.DisplacedMembers
import Scaffold.Proofs.DisplacedUnits
import Scaffold.Proofs.Displacement
import Scaffold.Proofs.EmissionOrder
import Scaffold.Proofs.FeatureOrder
import Scaffold.Proofs.FixtureSearch
import Scaffold.Proofs.GreedyOrder
import Scaffold.Proofs.JsonDefaults
import Scaffold.Proofs.JsonRoundTrip
import Scaffold.Proofs.MappedForms
import Scaffold.Proofs.MappingAgreement
import Scaffold.Proofs.MappingClosure
import Scaffold.Proofs.MappingExactness
import Scaffold.Proofs.MockMembers
import Scaffold.Proofs.MockRoundTrip
import Scaffold.Proofs.NestedRejections
import Scaffold.Proofs.NestingBounds
import Scaffold.Proofs.OutcomeForm
import Scaffold.Proofs.OutputUnits
import Scaffold.Proofs.Reading
import Scaffold.Proofs.ReadingOn
import Scaffold.Proofs.RegistrationFates
import Scaffold.Proofs.Rejections
import Scaffold.Proofs.RequiredMembers
import Scaffold.Proofs.ResolutionPartition
import Scaffold.Proofs.Resolutions
import Scaffold.Proofs.RunAgreement
import Scaffold.Proofs.RunArtifacts
import Scaffold.Proofs.SharedWork
import Scaffold.Proofs.Signatures
import Scaffold.Proofs.Spelling
import Scaffold.Proofs.StateRoundTrip
import Scaffold.Proofs.StorageNames
import Scaffold.Proofs.StrategyIndependence
import Scaffold.Proofs.StrictSources
import Scaffold.Proofs.TokenLines
import Scaffold.Proofs.TokenPlaces
import Scaffold.Proofs.TokenSpellings
import Scaffold.Proofs.TokenTiling
import Scaffold.Proofs.TypeAcceptance
import Scaffold.Proofs.TypeExpressions
import Scaffold.Proofs.TypeGrammar
import Scaffold.Proofs.TypeNesting
import Scaffold.Proofs.TypeNormalForms
import Scaffold.Proofs.TypeRoundTrip
import Scaffold.Proofs.TypeSpelling
import Scaffold.Proofs.UnitLocality
import Scaffold.Proofs.UnitSplitting
import Scaffold.Proofs.UnrelatedDeclarations
import Scaffold.Proofs.ValueTexts
import Scaffold.Registration
import Scaffold.Requirements
import Scaffold.Resolution
import Scaffold.Run
import Scaffold.Settings.Basic
import Scaffold.Settings.Json
import Scaffold.Settings.Toml
import Scaffold.Signature
import Scaffold.Source.Bodies
import Scaffold.Source.Cursor
import Scaffold.Source.Members
import Scaffold.Source.Outcome
import Scaffold.Source.Scan
import Scaffold.Source.Types
import Scaffold.Source.Unit
import Scaffold.Stub
import Scaffold.Tag
import Scaffold.Text.Affix
import Scaffold.Text.Blank
import Scaffold.Text.Case
import Scaffold.Text.CaseTable
import Scaffold.Text.CodeRun
import Scaffold.Text.Letter
import Scaffold.Text.LetterTable
import Scaffold.Text.Lines
import Scaffold.Text.Slice
import Scaffold.Token.Basic
import Scaffold.Token.Lexer
import Scaffold.Toml.Basic
import Scaffold.Toml.Reader
import Scaffold.Toml.Scalar
import Scaffold.TypeRef.Basic
import Scaffold.TypeRef.Json
import Scaffold.TypeRef.Printer
import Scaffold.Workers
