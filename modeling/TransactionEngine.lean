import TransactionEngine.Combo.Basic
import TransactionEngine.Combo.Matcher
import TransactionEngine.Combo.Trie
import TransactionEngine.Command.Arithmetic
import TransactionEngine.Command.Lookup
import TransactionEngine.Command.Regular
import TransactionEngine.Config.Basic
import TransactionEngine.Config.Load
import TransactionEngine.Dictionary
import TransactionEngine.Engine
import TransactionEngine.Error
import TransactionEngine.Handles
import TransactionEngine.Hash.SipHash
import TransactionEngine.Heap.Basic
import TransactionEngine.Heap.Order
import TransactionEngine.Heap.Search
import TransactionEngine.Heap.Sets
import TransactionEngine.Host
import TransactionEngine.Json.Basic
import TransactionEngine.Json.Document
import TransactionEngine.Json.Double
import TransactionEngine.Json.Fault
import TransactionEngine.Json.Record
import TransactionEngine.Json.Scalar
import TransactionEngine.Json.Shape
import TransactionEngine.Json.Skip
import TransactionEngine.Json.SyntaxFault
import TransactionEngine.Json.Writer
import TransactionEngine.Message.Decode
import TransactionEngine.Message.Envelope
import TransactionEngine.Processor.Basic
import TransactionEngine.Processor.Run
import TransactionEngine.Processor.Special
import TransactionEngine.Program
import TransactionEngine.Proofs.AllOrNothing
import TransactionEngine.Proofs.ArgumentRuns
import TransactionEngine.Proofs.CanonicalSets
import TransactionEngine.Proofs.ClientReplies
import TransactionEngine.Proofs.ComboPresses
import TransactionEngine.Proofs.CommandsInPlace
import TransactionEngine.Proofs.CompactDocuments
import TransactionEngine.Proofs.Comparisons
import TransactionEngine.Proofs.Concatenation
import TransactionEngine.Proofs.ConfiguredCombos
import TransactionEngine.Proofs.Conversations
import TransactionEngine.Proofs.DocumentsReadBack
import TransactionEngine.Proofs.EngineAnswers
import TransactionEngine.Proofs.EnvelopeFields
import TransactionEngine.Proofs.EqualValues
import TransactionEngine.Proofs.ExactArithmetic
import TransactionEngine.Proofs.ExitRequests
import TransactionEngine.Proofs.FailedStatements
import TransactionEngine.Proofs.FiredTransactions
import TransactionEngine.Proofs.ForwardRuns
import TransactionEngine.Proofs.Halting
import TransactionEngine.Proofs.HandleCounts
import TransactionEngine.Proofs.HandleHistory
import TransactionEngine.Proofs.HandleReach
import TransactionEngine.Proofs.HashStreams
import TransactionEngine.Proofs.HeapViews
import TransactionEngine.Proofs.HiddenSlots
import TransactionEngine.Proofs.Interleavings
import TransactionEngine.Proofs.KeysAsEvents
import TransactionEngine.Proofs.KeysDown
import TransactionEngine.Proofs.LinearPreorder
import TransactionEngine.Proofs.MachineChecks
import TransactionEngine.Proofs.MatcherHistory
import TransactionEngine.Proofs.MemberSearch
import TransactionEngine.Proofs.MessageNumbers
import TransactionEngine.Proofs.Moves
import TransactionEngine.Proofs.NestedFrames
import TransactionEngine.Proofs.Noninterference
import TransactionEngine.Proofs.ObjectTypes
import TransactionEngine.Proofs.Outcomes
import TransactionEngine.Proofs.Positions
import TransactionEngine.Proofs.ReadDocuments
import TransactionEngine.Proofs.RegistryHistory
import TransactionEngine.Proofs.RegistryMaps
import TransactionEngine.Proofs.RegistryRefinement
import TransactionEngine.Proofs.RepeatedRuns
import TransactionEngine.Proofs.Replays
import TransactionEngine.Proofs.ReplyEncodings
import TransactionEngine.Proofs.ReplyLines
import TransactionEngine.Proofs.RequestFlow
import TransactionEngine.Proofs.ScalarsReadBack
import TransactionEngine.Proofs.SearchWindows
import TransactionEngine.Proofs.SharedSets
import TransactionEngine.Proofs.SortedLookup
import TransactionEngine.Proofs.StackCapacity
import TransactionEngine.Proofs.StackFrames
import TransactionEngine.Proofs.StackInPlace
import TransactionEngine.Proofs.StatementHosts
import TransactionEngine.Proofs.StatementsInPlace
import TransactionEngine.Proofs.TableContents
import TransactionEngine.Proofs.TableHistory
import TransactionEngine.Proofs.TableLevels
import TransactionEngine.Proofs.TextBytes
import TransactionEngine.Proofs.TransactionGrammar
import TransactionEngine.Proofs.TrieContents
import TransactionEngine.Proofs.TrieHistory
import TransactionEngine.Proofs.ValueOrder
import TransactionEngine.Proofs.WrittenConfig
import TransactionEngine.Registry
import TransactionEngine.Reply
import TransactionEngine.Session
import TransactionEngine.Session.Concurrent
import TransactionEngine.SparseTable
import TransactionEngine.Stack
import TransactionEngine.Text.Bytes
import TransactionEngine.Text.Digits
import TransactionEngine.Text.Invisible
import TransactionEngine.Text.Quoted
import TransactionEngine.Transaction
import TransactionEngine.Value.Basic
import TransactionEngine.Value.Hash
import TransactionEngine.Value.Identity
import TransactionEngine.Value.Kind
import TransactionEngine.Value.Order
import TransactionEngine.Value.Wire
