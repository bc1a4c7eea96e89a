import SolidScript.Main
import SolidScript.Shape.Same
import SolidScript.Shape.Stored
import SolidScript.Proofs.Document.RoundTrip
import SolidScript.Proofs.Document.Verdict
import SolidScript.Proofs.Document.Children
import SolidScript.Proofs.Script.Scan
import SolidScript.Proofs.Overlay.Idempotent
import SolidScript.Proofs.Overlay.Loop
import SolidScript.Proofs.Overlay.Script
import SolidScript.Proofs.Double.Interval
import SolidScript.Proofs.Decimal.Shortest
import SolidScript.Proofs.Double.Scientific
import SolidScript.Proofs.Decimal.Digits
import SolidScript.Proofs.Json.Number
import SolidScript.Proofs.Json.Record
import SolidScript.Proofs.Shape.Measures
import SolidScript.Proofs.Shape.Persist
import SolidScript.Proofs.Document.Finite
import SolidScript.Proofs.Document.Persist
import SolidScript.Proofs.Document.Strip
import SolidScript.Proofs.Document.Fill
import SolidScript.Proofs.Document.Defaults
import SolidScript.Proofs.Document.Spelling
import SolidScript.Proofs.Document.Shorthand
import SolidScript.Proofs.Document.Matrix
import SolidScript.Proofs.Command.Build
import SolidScript.Proofs.Overlay.Anchored
import SolidScript.Proofs.Shape.Footprint
import SolidScript.Proofs.Config.Keys
import SolidScript.Proofs.Config.Override
import SolidScript.Proofs.Command.FileTree
import SolidScript.Proofs.Command.Settings
import SolidScript.Proofs.Toml.Scalar
import SolidScript.Proofs.Toml.Lines
import SolidScript.Proofs.Toml.Tables
import SolidScript.Proofs.Toml.Plain
import SolidScript.Proofs.Config.Held
import SolidScript.Proofs.Config.RoundTrip
import SolidScript.Proofs.Scalar.Order
import SolidScript.Proofs.Geometry.Box
import SolidScript.Proofs.Geometry.Least
import SolidScript.Proofs.Overlay.Fraction
import SolidScript.Proofs.Overlay.Inches
import SolidScript.Proofs.Command.Listing
import SolidScript.Proofs.Text.Quoted
import SolidScript.Proofs.Double.Overflow
import SolidScript.Proofs.Shape.Shrink
import SolidScript.Proofs.Shape.Outline
import SolidScript.Proofs.Shape.Range
import SolidScript.Proofs.Document.Warnings
import SolidScript.Proofs.Overlay.Swapped
import SolidScript.Proofs.Script.Measure
import SolidScript.Proofs.Script.Whole
