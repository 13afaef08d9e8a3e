import TacEvm.Analysis.Decimals
import TacEvm.Analysis.CommitTotal
import TacEvm.Analysis.FailedCalls
import TacEvm.Analysis.Bookkeeping
import TacEvm.Analysis.SupplyConservation
import TacEvm.Analysis.Units
import TacEvm.Analysis.Erc20Genesis
import TacEvm.Analysis.VmGenesis
import TacEvm.Analysis.Solvency
import TacEvm.Analysis.FeeBounds
import TacEvm.Analysis.TxIdentity
import TacEvm.Analysis.IndexerLookup
import TacEvm.Analysis.ApprovalMonitoring
import TacEvm.Analysis.PrecompileDispatch
import TacEvm.Analysis.ApprovalLogs
import TacEvm.Analysis.StakingAccounts
import TacEvm.Analysis.Erc20Names
import TacEvm.Analysis.ZeroSlots
import TacEvm.Analysis.TraceAgreement
import TacEvm.Analysis.LogQueries
import TacEvm.Analysis.FeeHistoryShape
import TacEvm.Analysis.SuggestedTip
import TacEvm.Analysis.PayloadFlattening
import TacEvm.Analysis.TypeSchema
