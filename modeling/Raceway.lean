import Raceway.Proofs.Drawing
import Raceway.Proofs.Geometry.CommonPoint
import Raceway.Proofs.Geometry.Symmetry
import Raceway.Proofs.Grid.Reach
import Raceway.Proofs.Query.FiniteReports
import Raceway.Proofs.Query.FullReports
import Raceway.Proofs.Query.RingCrossing
import Raceway.Proofs.Query.Tour
import Raceway.Proofs.Session.FlatLoad
import Raceway.Proofs.Session.LoadChecks
import Raceway.Proofs.Track.LastQuery
