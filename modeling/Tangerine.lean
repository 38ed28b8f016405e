import Tangerine.Bytes
import Tangerine.Types
import Tangerine.Hashing
import Tangerine.Signer
import Tangerine.BlockRLP
import Tangerine.NodeSetCache
import Tangerine.KeyPool
import Tangerine.Window
import Tangerine.Memo
import Tangerine.Sweep
import Tangerine.AgreementState
import Tangerine.NonBlocking
import Tangerine.MemBackedDB
import Tangerine.DexCache
import Tangerine.DexBlockCache
import Tangerine.MemBackedMeta
import Tangerine.BigFloat
import Tangerine.Dexcon
import Tangerine.BlockProposer
import Tangerine.GroupKey
