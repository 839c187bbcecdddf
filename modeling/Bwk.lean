import Bwk.OrderedMap
import Bwk.Triples
import Bwk.RamStore
import Bwk.HeaderValidator
import Bwk.HeaderConsensus
import Bwk.HeaderChain
import Bwk.HeaderReplay
import Bwk.HeaderStore
import Bwk.HeaderWorker
import Bwk.HeaderWrites
import Bwk.HeaderSafety
import Bwk.HeaderRuns
import Bwk.HeaderInvariant
import Bwk.HeaderCheckpoint
import Bwk.HeaderReorg
import Bwk.HeaderRanges
import Bwk.HeaderAccepts
import Bwk.HeaderCompleteness
import Bwk.HeaderReload
import Bwk.HeaderFeeding
import Bwk.HeaderPrepend
import Bwk.TxStore
import Bwk.AddressStore
import Bwk.CoinStore
import Bwk.CoinFolds
import Bwk.CoinPasses
import Bwk.CoinGenerate
import Bwk.Listener
import Bwk.Reconciler
import Bwk.ReconcilerSafety
import Bwk.ReconcilerRace
import Bwk.HeaderTakeover
import Bwk.MerkleSlots
import Bwk.MerkleRouter
import Bwk.MerkleStranding
import Bwk.SpvInclusion
import Bwk.SpStores
import Bwk.SpScan
import Bwk.SpRecords
import Bwk.SpScanRules
import Bwk.SpBroadcast
import Bwk.SpWallet
import Bwk.SpRollback
import Bwk.StoreCodec
import Bwk.FixedRecords
import Bwk.HeaderFile
import Bwk.HeaderFileMap
import Bwk.HeaderFileOpen
import Bwk.SpendScanner
import Bwk.SpReceive
import Bwk.SpFrontier
import Bwk.SpWatchable
import Bwk.SpSweep
import Bwk.SpReorg
import Bwk.SpCrash
import Bwk.SpVouched
import Bwk.SpConverge
import Bwk.XOnlyKeys
import Bwk.SpReceiving
import Bwk.SpMatch
import Bwk.SpReports
import Bwk.AddressWindow
import Bwk.TipRegistry
import Bwk.GapScan
import Bwk.GapDiscovery
import Bwk.GapRuns
import Bwk.GapLimit
import Bwk.CheckedMath
import Bwk.TxFees
import Bwk.TxTemplate
import Bwk.TxRecipient
import Bwk.TxProcess
import Bwk.TxUnreachable
import Bwk.TxBuild
import Bwk.TxSettled
import Bwk.TxMissingChange
import Bwk.TxProportion
import Bwk.TxConserves
import Bwk.TxSelection
import Bwk.TxPay
import Bwk.Transitions
import Bwk.HwiService
import Bwk.ScannerThreads
import Bwk.ScannerOwnership
import Bwk.ScannerOnline
import Bwk.RowBackends
import Bwk.RowModel
import Bwk.RowRefines
import Bwk.RowBackendsAgree
import Bwk.RowBackendsRuns
import Bwk.RowBackendsInterchange
import Bwk.HeaderRestart
import Bwk.HeaderRestartSound
import Bwk.HeaderOneWriter
import Bwk.MerkleTree
import Bwk.MerkleProof
import Bwk.TxSelectionSound
import Bwk.TxSelectionBest
import Bwk.TxAutoFunded
import Bwk.CoinClaims
import Bwk.CoinTimes
import Bwk.CoinRefresh
import Bwk.CoinRestart
import Bwk.CoinGhosts
import Bwk.CoinMutations
import Bwk.CoinUsage
import Bwk.CoinMirror
import Bwk.PaymentAdditive
import Bwk.BalanceUnspent
import Bwk.SpSameKeys
import Bwk.SpSweepExact
import Bwk.SpCompletes
import Bwk.ClientHeaderListener
import Bwk.ScanLoopCurrent
import Bwk.DerivationFilter
import Bwk.SigningRounds
import Bwk.SignatureMerge
import Bwk.PolicyTemplate
import Bwk.P2pClient
import Bwk.ResponseParsing
import Bwk.SpAddress
import Bwk.SpScanState
import Bwk.SignerIndependence
import Bwk.DeviceMap
import Bwk.HistoryDiffs
import Bwk.LineReader
import Bwk.JadeParts
import Bwk.BitBoxFrames
import Bwk.ResponseOrder
