import HempCore.Analysis.AssetDirectory
import HempCore.Analysis.ChangeKey
import HempCore.Analysis.CoinSupply
import HempCore.Analysis.CoinsViewCache
import HempCore.Analysis.CommandRoundTrip
import HempCore.Analysis.Difficulty
import HempCore.Analysis.Freeze
import HempCore.Analysis.HeaderWork
import HempCore.Analysis.LRUCache
import HempCore.Analysis.MempoolClosure
import HempCore.Analysis.MempoolIndependence
import HempCore.Analysis.MessageIndex
import HempCore.Analysis.GlobMatch
import HempCore.Analysis.Messages
import HempCore.Analysis.MetadataEvolution
import HempCore.Analysis.MigrationMetadata
import HempCore.Analysis.Mnemonic
import HempCore.Analysis.NameHierarchy
import HempCore.Analysis.RPCAuth
import HempCore.Analysis.Rewards
import HempCore.Analysis.Snapshots
import HempCore.Analysis.VerifierEvaluation
import HempCore.Analysis.WalletBalance
