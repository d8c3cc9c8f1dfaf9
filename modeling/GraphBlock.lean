import GraphBlock.Text.Basic
import GraphBlock.Text.Character
import GraphBlock.Text.Pieces
import GraphBlock.Text.Quoted
import GraphBlock.Number.Binary64
import GraphBlock.Number.Decimal
import GraphBlock.Number.Layout
import GraphBlock.Number.Shortest
import GraphBlock.Number.Basic
import GraphBlock.Vocabulary
import GraphBlock.Style
import GraphBlock.Color
import GraphBlock.Value.Basic
import GraphBlock.Value.Equality
import GraphBlock.Value.Written
import GraphBlock.Json
import GraphBlock.Sha256
import GraphBlock.Error
import GraphBlock.Setting.Key
import GraphBlock.Setting.Kind
import GraphBlock.Setting.Basic
import GraphBlock.Setting.Overrides
import GraphBlock.Setting.Bounds
import GraphBlock.Setting.Settings
import GraphBlock.Hint
import GraphBlock.Equation.Basic
import GraphBlock.Equation.Line
import GraphBlock.Source
import GraphBlock.Graph.Basic
import GraphBlock.Graph.Calculator
import GraphBlock.Latex
import GraphBlock.Algebra.Rounding
import GraphBlock.Algebra.Scalar
import GraphBlock.Algebra.Elementary
import GraphBlock.Algebra.Complex
import GraphBlock.Algebra.Expr
import GraphBlock.Algebra.Approximation
import GraphBlock.Algebra.Nature
import GraphBlock.Algebra.Order
import GraphBlock.Algebra.Operations
import GraphBlock.Algebra.Sum
import GraphBlock.Algebra.Product
import GraphBlock.Algebra.Radical
import GraphBlock.Algebra.Power.Decimal
import GraphBlock.Algebra.Power.Number
import GraphBlock.Algebra.Power.Basic
import GraphBlock.Algebra.Application
import GraphBlock.Algebra.Simplify
import GraphBlock.Algebra.Statement
import GraphBlock.Algebra.Printer
import GraphBlock.Algebra.Latex.Formula
import GraphBlock.Algebra.Latex.Lexeme
import GraphBlock.Algebra.Latex.Chart
import GraphBlock.Algebra.System
import GraphBlock.Plugin
import GraphBlock.Session
import GraphBlock.Proofs.Source.Directive
import GraphBlock.Proofs.Text.Pieces
import GraphBlock.Proofs.Source.Assignment
import GraphBlock.Proofs.Source.Rewrite
import GraphBlock.Proofs.Number.Decimal
import GraphBlock.Proofs.Number.Shortest
import GraphBlock.Proofs.Number.Numeral
import GraphBlock.Proofs.Number.ReadBack
import GraphBlock.Proofs.Number.Place
import GraphBlock.Proofs.Text.Blank
import GraphBlock.Proofs.Setting.Spelling
import GraphBlock.Proofs.Source.Composition
import GraphBlock.Proofs.Graph.Live
import GraphBlock.Proofs.Graph.CacheKey
import GraphBlock.Proofs.Graph.Written
import GraphBlock.Proofs.Text.Layout
import GraphBlock.Proofs.Source.Layout
import GraphBlock.Proofs.Graph.Layout
import GraphBlock.Proofs.Setting.Lookup
import GraphBlock.Proofs.Graph.Run
import GraphBlock.Proofs.Equation.Read
import GraphBlock.Proofs.Setting.Placed
import GraphBlock.Proofs.Graph.Reachable
import GraphBlock.Proofs.Graph.WriteBack
import GraphBlock.Proofs.Equation.Grammar
import GraphBlock.Proofs.Plugin.Migration
import GraphBlock.Proofs.Plugin.Shape
import GraphBlock.Proofs.Graph.Fault
import GraphBlock.Proofs.Graph.Failure
import GraphBlock.Proofs.Equation.Painted
import GraphBlock.Proofs.Graph.DefaultColor
import GraphBlock.Proofs.Equation.Order
import GraphBlock.Proofs.Graph.Order
import GraphBlock.Proofs.Source.Frame
import GraphBlock.Proofs.Source.Spacing
import GraphBlock.Proofs.Graph.Joined
import GraphBlock.Proofs.Graph.SideChannel
import GraphBlock.Proofs.Html.Card
import GraphBlock.Proofs.Json.Normal
import GraphBlock.Proofs.Setting.Size
import GraphBlock.Proofs.Graph.Inference
import GraphBlock.Proofs.Graph.SingleEdge
import GraphBlock.Proofs.Graph.Validation
import GraphBlock.Proofs.Graph.Clause
import GraphBlock.Proofs.Algebra.Printer
import GraphBlock.Proofs.Latex.Plain
