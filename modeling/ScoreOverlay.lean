import ScoreOverlay.Proofs.Binary.Accuracy
import ScoreOverlay.Proofs.Binary.Monotonicity
import ScoreOverlay.Proofs.Binary.Order
import ScoreOverlay.Proofs.Binary.Quotient
import ScoreOverlay.Proofs.Cluster.Components
import ScoreOverlay.Proofs.Cluster.Division
import ScoreOverlay.Proofs.Cluster.Frontier
import ScoreOverlay.Proofs.Cluster.Mirror
import ScoreOverlay.Proofs.Cluster.Pairing.FirstFit
import ScoreOverlay.Proofs.Cluster.Pairing.Height
import ScoreOverlay.Proofs.Cluster.Pairing.Names
import ScoreOverlay.Proofs.Cluster.Pairing.Repetition
import ScoreOverlay.Proofs.Cluster.Pairing.Sides
import ScoreOverlay.Proofs.Cluster.Pairing.Tallest
import ScoreOverlay.Proofs.Cluster.Partition
import ScoreOverlay.Proofs.Cluster.Reordering
import ScoreOverlay.Proofs.Cluster.Soundness
import ScoreOverlay.Proofs.Field.Clock
import ScoreOverlay.Proofs.Field.Shift
import ScoreOverlay.Proofs.Geometry.Join
import ScoreOverlay.Proofs.Geometry.Segment
import ScoreOverlay.Proofs.Geometry.SharedArea
import ScoreOverlay.Proofs.Glyph.Closeness
import ScoreOverlay.Proofs.Glyph.Fusion.Turns
import ScoreOverlay.Proofs.Glyph.Margin
import ScoreOverlay.Proofs.GlyphNet.Recognition
import ScoreOverlay.Proofs.Image.Corners
import ScoreOverlay.Proofs.Image.Levels
import ScoreOverlay.Proofs.Image.Spelling
import ScoreOverlay.Proofs.Labeling.Parts
import ScoreOverlay.Proofs.Labeling.Protocol
import ScoreOverlay.Proofs.Reader.Building
import ScoreOverlay.Proofs.Reader.Conservation
import ScoreOverlay.Proofs.Reader.Isolation
import ScoreOverlay.Proofs.Reader.Safety
import ScoreOverlay.Proofs.Reader.Selection
import ScoreOverlay.Proofs.Word.Arrangement
