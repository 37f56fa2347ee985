import EntityGraph.Graph.Dump
import EntityGraph.Source.Loader
import EntityGraph.Timer
import EntityGraph.Proofs.Built
import EntityGraph.Proofs.Growth
import EntityGraph.Proofs.Lookup
import EntityGraph.Proofs.Step
import EntityGraph.Proofs.Completion
import EntityGraph.Proofs.Settled
import EntityGraph.Proofs.Run
import EntityGraph.Proofs.Idempotence
import EntityGraph.Proofs.Integrity
import EntityGraph.Proofs.Acceptance
import EntityGraph.Proofs.Effect
import EntityGraph.Proofs.Additions
import EntityGraph.Proofs.Reordering
import EntityGraph.Proofs.Acceptors
import EntityGraph.Proofs.Declared
import EntityGraph.Proofs.SchemaFaults
import EntityGraph.Proofs.Taxonomy
import EntityGraph.Proofs.Dumps
import EntityGraph.Proofs.Readback
import EntityGraph.Proofs.Agreement
import EntityGraph.Proofs.Reading
import EntityGraph.Proofs.Classification
import EntityGraph.Proofs.BlockOrder
import EntityGraph.Proofs.Headings
import EntityGraph.Proofs.Lines
import EntityGraph.Proofs.Placement
import EntityGraph.Proofs.Accounts
import EntityGraph.Proofs.Braces
import EntityGraph.Proofs.Pieces
import EntityGraph.Proofs.Recovery
import EntityGraph.Proofs.Marks
import EntityGraph.Proofs.Writing
import EntityGraph.Proofs.Rewording
import EntityGraph.Proofs.Likeness
import EntityGraph.Proofs.Comments
import EntityGraph.Proofs.FieldLines
import EntityGraph.Proofs.Switches
import EntityGraph.Proofs.Omissions
import EntityGraph.Proofs.Frozen
import EntityGraph.Proofs.LocalKeys
import EntityGraph.Proofs.Options
import EntityGraph.Proofs.Interrupted
import EntityGraph.Proofs.WayBack
import EntityGraph.Proofs.WrittenLines
import EntityGraph.Proofs.Conventions
import EntityGraph.Proofs.Requests
import EntityGraph.Proofs.Malformed
import EntityGraph.Proofs.ValueLists
import EntityGraph.Proofs.EnumBlocks
import EntityGraph.Proofs.FieldTypes
import EntityGraph.Proofs.Segments
import EntityGraph.Proofs.LastWords
import EntityGraph.Proofs.WordPattern
import EntityGraph.Proofs.PluralPattern
import EntityGraph.Proofs.Plurals
import EntityGraph.Proofs.Compounds
import EntityGraph.Proofs.PluralCuts
import EntityGraph.Proofs.TableNames
import EntityGraph.Proofs.RelationPaths
import EntityGraph.Proofs.QuotedDefaults
import EntityGraph.Proofs.TypeTokens
import EntityGraph.Proofs.Spellings
import EntityGraph.Proofs.Substitutions
