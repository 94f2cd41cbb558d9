import DeviceCatalog.CSource.Call
import DeviceCatalog.CSource.Declaration
import DeviceCatalog.CSource.Evaluation
import DeviceCatalog.CSource.Grouping
import DeviceCatalog.CSource.Lines
import DeviceCatalog.Main
import DeviceCatalog.Proofs.AddressGrammar
import DeviceCatalog.Proofs.AddressIndex
import DeviceCatalog.Proofs.AddressSpec
import DeviceCatalog.Proofs.ByteTables
import DeviceCatalog.Proofs.CommentLines
import DeviceCatalog.Proofs.ComposedText
import DeviceCatalog.Proofs.Composition
import DeviceCatalog.Proofs.Declarations
import DeviceCatalog.Proofs.DecoderBounds
import DeviceCatalog.Proofs.DecoderLookup
import DeviceCatalog.Proofs.DecoderNames
import DeviceCatalog.Proofs.DelimiterSearch
import DeviceCatalog.Proofs.Dictionary
import DeviceCatalog.Proofs.DictionaryKeys
import DeviceCatalog.Proofs.Directories
import DeviceCatalog.Proofs.DistinctKeys
import DeviceCatalog.Proofs.Evaluation
import DeviceCatalog.Proofs.Extraction
import DeviceCatalog.Proofs.FieldEncoding
import DeviceCatalog.Proofs.FieldValues
import DeviceCatalog.Proofs.FileScope
import DeviceCatalog.Proofs.FirstFailure
import DeviceCatalog.Proofs.FunctionNames
import DeviceCatalog.Proofs.Generation
import DeviceCatalog.Proofs.Grouping
import DeviceCatalog.Proofs.IntegerScaling
import DeviceCatalog.Proofs.LookupTables
import DeviceCatalog.Proofs.Merge
import DeviceCatalog.Proofs.ModelBuild
import DeviceCatalog.Proofs.Moving
import DeviceCatalog.Proofs.NativeDecoder
import DeviceCatalog.Proofs.NativeFile
import DeviceCatalog.Proofs.ParentPaths
import DeviceCatalog.Proofs.PathLists
import DeviceCatalog.Proofs.PollLayout
import DeviceCatalog.Proofs.RawLiterals
import DeviceCatalog.Proofs.ReadExpressions
import DeviceCatalog.Proofs.Reading
import DeviceCatalog.Proofs.RecordTable
import DeviceCatalog.Proofs.Regeneration
import DeviceCatalog.Proofs.ScanLists
import DeviceCatalog.Proofs.ScanPriorities
import DeviceCatalog.Proofs.ScriptDecoder
import DeviceCatalog.Proofs.ScriptFile
import DeviceCatalog.Proofs.ScriptLiterals
import DeviceCatalog.Proofs.SharedPaths
import DeviceCatalog.Proofs.SingleCatalog
import DeviceCatalog.Proofs.StagedFiles
import DeviceCatalog.Proofs.Staging
import DeviceCatalog.Proofs.Staleness
import DeviceCatalog.Proofs.StructMembers
import DeviceCatalog.Proofs.Symbols
import DeviceCatalog.Proofs.Tokens
import DeviceCatalog.Proofs.Trimming
import DeviceCatalog.Proofs.Unwrapping
import DeviceCatalog.Proofs.Walking
import DeviceCatalog.Proofs.Writing
import DeviceCatalog.Proofs.ZeroDivisors
