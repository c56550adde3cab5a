import InsertBatch.Ascii
import InsertBatch.Bytes
import InsertBatch.Lexer
import InsertBatch.Lexeme
import InsertBatch.Keyword
import InsertBatch.Token
import InsertBatch.Segment
import InsertBatch.BindError
import InsertBatch.Template
import InsertBatch.Classification
import InsertBatch.Statement
import InsertBatch.Batch.Packing
import InsertBatch.Batch.Plan
import InsertBatch.Cache
import InsertBatch.Prepared
import InsertBatch.Text.Blank
import InsertBatch.Script
import InsertBatch.Text.Fields
import InsertBatch.SqlMode
import InsertBatch.Settings
import InsertBatch.Text.Unprintable
import InsertBatch.Text.Quoted
import InsertBatch.Report
import InsertBatch.Text.CaseData
import InsertBatch.Text.Lowercase
import InsertBatch.Path
import InsertBatch.ReadError
import InsertBatch.FileTree
import InsertBatch.Glob
import InsertBatch.Selection
import InsertBatch.Toml.Value
import InsertBatch.Toml.Scalar
import InsertBatch.Toml.DateKey
import InsertBatch.Toml.Node
import InsertBatch.Toml.Document
import InsertBatch.Config.Error
import InsertBatch.Config.Assignment
import InsertBatch.Config.Load
import InsertBatch.CommandLine
import InsertBatch.Program
import InsertBatch.Main
import InsertBatch.Proofs.Lexing
import InsertBatch.Proofs.LexemeRuns
import InsertBatch.Proofs.TokenRuns
import InsertBatch.Proofs.Cutting
import InsertBatch.Proofs.TupleShape
import InsertBatch.Proofs.TemplateSoundness
import InsertBatch.Proofs.ValuesClause
import InsertBatch.Proofs.Packing
import InsertBatch.Proofs.BatchPlans
import InsertBatch.Proofs.InsertedTuples
import InsertBatch.Proofs.RowErrors
import InsertBatch.Proofs.PreparedRuns
import InsertBatch.Proofs.Outline
import InsertBatch.Proofs.BoundValues
import InsertBatch.Proofs.ScriptPieces
import InsertBatch.Proofs.JoinedTexts
import InsertBatch.Proofs.MergedTexts
import InsertBatch.Proofs.CharacterReading
import InsertBatch.Proofs.ResumedReading
import InsertBatch.Proofs.Places
import InsertBatch.Proofs.WordPlaces
import InsertBatch.Proofs.FreePlaces
import InsertBatch.Proofs.TupleBounds
import InsertBatch.Proofs.FlagMeanings
import InsertBatch.Proofs.SolidTokens
import InsertBatch.Proofs.BlankedComments
import InsertBatch.Proofs.TokenReading
import InsertBatch.Proofs.InsertHeads
import InsertBatch.Proofs.PlainInserts
import InsertBatch.Proofs.ScriptAgreement
import InsertBatch.Proofs.Trimming
import InsertBatch.Proofs.ScriptStatements
import InsertBatch.Proofs.Scanning
import InsertBatch.Proofs.CharacterSlices
import InsertBatch.Proofs.Entries
import InsertBatch.Proofs.CacheHistories
import InsertBatch.Proofs.CacheCounters
import InsertBatch.Proofs.Fields
import InsertBatch.Proofs.LetterCase
import InsertBatch.Proofs.ServerModes
import InsertBatch.Proofs.OptionOrder
import InsertBatch.Proofs.FileTrees
import InsertBatch.Proofs.ConfigSearch
import InsertBatch.Proofs.ProjectFiles
import InsertBatch.Proofs.SqlNames
import InsertBatch.Proofs.PathOrder
import InsertBatch.Proofs.PathSelection
import InsertBatch.Proofs.RepeatedFiles
import InsertBatch.Proofs.ExitStatus
