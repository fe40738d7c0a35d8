import MlopsPlatform.TextCodec
import MlopsPlatform.TextLines
import MlopsPlatform.TextStrip
import MlopsPlatform.SupplyAdvisory
import MlopsPlatform.PythonFiles
import MlopsPlatform.PythonJson
import MlopsPlatform.SupplyFindings
import MlopsPlatform.SupplyFindingsGate
import MlopsPlatform.StateRuns
import MlopsPlatform.SupplyFindingsAccept
import MlopsPlatform.SupplyFindingsHistory
import MlopsPlatform.SupplyInventory
import MlopsPlatform.SupplyInventoryDecode
import MlopsPlatform.DigestHex
import MlopsPlatform.PreflightCredentials
import MlopsPlatform.PreflightRuntime
import MlopsPlatform.PreflightChecks
import MlopsPlatform.PreflightPipeline
import MlopsPlatform.PreflightRequired
import MlopsPlatform.PreflightVolumeReport
import MlopsPlatform.ComposeDotenv
import MlopsPlatform.PreflightLifetime
import MlopsPlatform.PreflightCompose
import MlopsPlatform.ShellWords
import MlopsPlatform.StepSequences
import MlopsPlatform.SupplyEntrypoints
import MlopsPlatform.TextTokens
import MlopsPlatform.PythonYaml
import MlopsPlatform.SupplyImages
import MlopsPlatform.SupplyImagesComplete
import MlopsPlatform.SupplyStems
import MlopsPlatform.SupplyInventoryReproducible
import MlopsPlatform.SupplyCommitted
import MlopsPlatform.PreflightFingerprint
import MlopsPlatform.ConnectionUris
import MlopsPlatform.ChartSecret
import MlopsPlatform.RequestInterleaving
import MlopsPlatform.EnsureBuckets
import MlopsPlatform.SmokeDag
import MlopsPlatform.SmokeDagRuns
import MlopsPlatform.SupplyTargets
import MlopsPlatform.SupplyCoverage
import MlopsPlatform.SupplyInventoryComplete
import MlopsPlatform.SupplyInventorySubject
import MlopsPlatform.SupplyInventoryRefusal
import MlopsPlatform.SupplyFindingsAnswers
import MlopsPlatform.SupplyFindingsChecks
import MlopsPlatform.DockerfileSyntax
import MlopsPlatform.SupplyImagesGrammar
import MlopsPlatform.EnsureBucketsOwners
import MlopsPlatform.PreflightSatisfied
import MlopsPlatform.PreflightDotenv
import MlopsPlatform.ChartNames
import MlopsPlatform.GatedSchedules
import MlopsPlatform.PreflightProbe
import MlopsPlatform.PythonDict
import MlopsPlatform.QuickstartEnvelope
import MlopsPlatform.JsonStrings
import MlopsPlatform.JsonText
import MlopsPlatform.JsonRoundTrip
import MlopsPlatform.JsonLexing
import MlopsPlatform.JsonMarkers
import MlopsPlatform.StackPayload
import MlopsPlatform.StackShapes
import MlopsPlatform.ComposeContract
import MlopsPlatform.ChartTemplates
import MlopsPlatform.PreflightRecovery
import MlopsPlatform.PushPublish
import MlopsPlatform.SupplyScanHistory
import MlopsPlatform.LeakCheck
import MlopsPlatform.EntrypointTargets
import MlopsPlatform.FailureReports
import MlopsPlatform.ClusterTier
import MlopsPlatform.ChartReleases
