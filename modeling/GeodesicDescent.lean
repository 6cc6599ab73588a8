import GeodesicDescent.Direction.ConjugateGradient
import GeodesicDescent.Manifold.Flat
import GeodesicDescent.Manifold.Sphere
import GeodesicDescent.Objective.Library
import GeodesicDescent.Solver.Run
import GeodesicDescent.Solver.Hooks
import GeodesicDescent.Proofs.Stateful
import GeodesicDescent.Proofs.Exact
import GeodesicDescent.Proofs.Sphere.Transparency
import GeodesicDescent.Proofs.LineSearch.WolfeRuns
import GeodesicDescent.Proofs.Floating
import GeodesicDescent.Proofs.LineSearch.BacktrackingRuns
import GeodesicDescent.Proofs.LineSearch.Decrease
import GeodesicDescent.Proofs.Run.Iterations
import GeodesicDescent.Proofs.LineSearch.Descent
import GeodesicDescent.Proofs.Run.Descent
import GeodesicDescent.Proofs.Sphere.Form
import GeodesicDescent.Proofs.Sphere.Geometry
import GeodesicDescent.Proofs.Direction.ConjugateGradient
import GeodesicDescent.Proofs.LineSearch.Keeping
import GeodesicDescent.Proofs.Run.Tangency
import GeodesicDescent.Proofs.Run.Reports
import GeodesicDescent.Proofs.LineSearch.Counting
import GeodesicDescent.Proofs.Run.Counts
import GeodesicDescent.Proofs.Run.Coherence
import GeodesicDescent.Proofs.Run.Directions
import GeodesicDescent.Proofs.Spaces
import GeodesicDescent.Proofs.LineSearch.Curvature
import GeodesicDescent.Proofs.Run.Slopes
import GeodesicDescent.Proofs.Matrix
import GeodesicDescent.Proofs.Sphere.Reflection
import GeodesicDescent.Proofs.Sphere.Operators
import GeodesicDescent.Proofs.Run.Hooks
import GeodesicDescent.Proofs.Run.Budget
import GeodesicDescent.Proofs.Sphere.Geodesic
import GeodesicDescent.Proofs.Partials
import GeodesicDescent.Proofs.Differences
import GeodesicDescent.Proofs.LineSearch.Derivative
import GeodesicDescent.Proofs.LineSearch.Renaming
import GeodesicDescent.Proofs.Run.Renaming
import GeodesicDescent.Proofs.Run.Independence
import GeodesicDescent.Proofs.Run.Shift
import GeodesicDescent.Proofs.Run.Contract
import GeodesicDescent.Proofs.LineSearch.Refusals
import GeodesicDescent.Proofs.Run.Faults
import GeodesicDescent.Proofs.Run.Refusals
import GeodesicDescent.Proofs.Run.Containment
import GeodesicDescent.Proofs.Sphere.Shapes
import GeodesicDescent.Proofs.Sphere.Atomicity
import GeodesicDescent.Proofs.Sphere.Requests
import GeodesicDescent.Proofs.Sphere.Hessians
import GeodesicDescent.Proofs.LineSearch.FirstStep
import GeodesicDescent.Proofs.LineSearch.Profile
import GeodesicDescent.Proofs.LineSearch.Brackets
import GeodesicDescent.Proofs.LineSearch.Acceptance
import GeodesicDescent.Proofs.LineSearch.Parameters
import GeodesicDescent.Proofs.LineSearch.StepBounds
import GeodesicDescent.Proofs.LineSearch.LeastStep
import GeodesicDescent.Proofs.LineSearch.Inquiries
import GeodesicDescent.Proofs.Direction.Agreement
import GeodesicDescent.Proofs.Direction.Downhill
import GeodesicDescent.Proofs.Direction.Safeguard
import GeodesicDescent.Proofs.Direction.Recurrence
import GeodesicDescent.Proofs.Sphere.Nearest
import GeodesicDescent.Proofs.Sphere.Velocity
import GeodesicDescent.Proofs.LineSearch.SlopeAlong
import GeodesicDescent.Proofs.Double
import GeodesicDescent.Proofs.Settings.Reading
import GeodesicDescent.Proofs.Settings.Solver
import GeodesicDescent.Proofs.Settings.Rule
import GeodesicDescent.Proofs.Sphere.SelfAdjoint
import GeodesicDescent.Proofs.Sphere.SecondDerivative
import GeodesicDescent.Proofs.Run.Frame
import GeodesicDescent.Proofs.Sphere.Scaling
import GeodesicDescent.Proofs.Sphere.Conjugation
import GeodesicDescent.Proofs.Sphere.Projection
import GeodesicDescent.Proofs.Sphere.Trapezoid
import GeodesicDescent.Proofs.Run.Reuse
import GeodesicDescent.Proofs.Run.Journal
import GeodesicDescent.Proofs.Rounding
import GeodesicDescent.Proofs.Settings.Precision
