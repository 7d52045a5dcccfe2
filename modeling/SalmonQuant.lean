import SalmonQuant.Basic
import SalmonQuant.Binary64
import SalmonQuant.Cache.Archive
import SalmonQuant.Cache.Replay
import SalmonQuant.Cache.Writer
import SalmonQuant.EM.MiniBatch
import SalmonQuant.Driver.Experiment
import SalmonQuant.Driver.Rounds
import SalmonQuant.Driver.Threads
import SalmonQuant.Driver.Forgetting
import SalmonQuant.Mapping.Chain
import SalmonQuant.Mapping.BestChain
import SalmonQuant.Mapping.SampledHits
import SalmonQuant.Mapping.Hits
import SalmonQuant.Mapping.Occurrences
import SalmonQuant.Mapping.Collect
import SalmonQuant.Mapping.Fragment
import SalmonQuant.EM.Invariance
import SalmonQuant.Driver.ReadsMEM
import SalmonQuant.Driver.Replayed
import SalmonQuant.Driver.Summary
